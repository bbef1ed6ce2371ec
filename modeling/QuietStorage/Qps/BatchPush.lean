import QuietStorage.Qps.Service

/-!
# Qps.BatchPush — what becomes of each token of a batch

`sendBatchPush` from the validations of its UCANs to its result, in whatever surroundings. The UCANs
are validated in their order; each platform is handed the device tokens of the UCANs that are valid
for it, if it is available and there are any; and what FCM answers one platform is added to what it
answers the other.

**Spec.** `tokensFor` filters the validations, `Delivery` is what one platform was handed and
answered, and `sendBatchPush_accounts` says that the result is the sum of the two deliveries. FCM may
throw; what it returns is aligned with the tokens that were sent (`BatchResponse.Aligned`).
-/

set_option autoImplicit false

namespace QuietStorage.Qps

open Lib Communities Websocket

/-! ## The spec -/

/-- The UCAN is valid and names a device on Android, or on another platform. -/
def UcanValidationResult.isFor (validation : UcanValidationResult) (android : Bool) : Bool :=
  validation.valid && !validation.deviceToken.isNullish &&
    validation.platform.strictEquals (.string "android") == android

/-- The device tokens for a platform, in the order of the batch. -/
def tokensFor (android : Bool) (validations : List UcanValidationResult) : List JsValue :=
  (validations.filter (UcanValidationResult.isFor · android)).map UcanValidationResult.deviceToken

/-- A response for each token, with the counts that match. -/
structure BatchResponse.Aligned (response : BatchResponse) (tokens : List JsValue) : Prop where
  length_eq : response.responses.length = tokens.length
  success_eq : response.successCount = response.responses.countP Option.isNone
  failure_eq : response.failureCount = response.responses.countP Option.isSome

/-- The codes that say that a token is of no use (any more). -/
def INVALID_TOKEN_CODES : List String :=
  ["messaging/invalid-registration-token", "messaging/registration-token-not-registered"]

/-- The response is a failure with one of these codes. -/
def isRefusal : Option (Option String) → Bool
  | some (some code) => INVALID_TOKEN_CODES.contains code
  | _ => false

/-- The `i`-th response says that the `i`-th token is of no use. -/
def BatchResponse.refuses (response : BatchResponse) (i : Nat) : Bool :=
  response.responses[i]?.any isRefusal

/-- One platform of a batch: the tokens for it, and how FCM answered, if it was asked. -/
structure Delivery where
  tokens : List JsValue
  outcome : Option (Except FcmError BatchResponse)

/-- The number of notifications that FCM has accepted. -/
def Delivery.accepted (delivery : Delivery) : Nat :=
  match delivery.outcome with
  | some (.ok response) => response.responses.countP Option.isNone
  | _ => 0

/-- The tokens that were sent and refused. -/
def Delivery.refused (delivery : Delivery) : List JsValue :=
  match delivery.outcome with
  | some (.ok response) =>
    (delivery.tokens.zipIdx.filter fun token => response.refuses token.2).map Prod.fst
  | _ => []

/-- What FCM was asked. -/
def Delivery.asked (delivery : Delivery) (payload : PushPayload) (platform : JsValue) :
    List (Answered PushCommand PushCommand.Answer HandlerError) :=
  match delivery.outcome with
  | some outcome => [⟨.sendEachForMulticast delivery.tokens payload platform, .ok outcome⟩]
  | none => []

section
variable {Blob : Type} (config : QpsConfig)

/-- The UCANs of a batch are validated one after the other. -/
def validateAll : List JsValue → PushM Blob (List UcanValidationResult)
  | [] => pure []
  | ucan :: ucans => do
    let validation ← validateUcan config ucan
    let validations ← validateAll ucans
    pure (validation :: validations)

abbrev PushAround (Blob : Type) :=
  Surroundings (PushWorld Blob) PushCommand PushCommand.Answer HandlerError

/-- FCM throws, or it returns a response for each token. -/
def FcmAnswers (around : PushAround Blob) : Prop :=
  ∀ answered w tokens payload platform, ∃ outcome,
    (around answered w (.sendEachForMulticast tokens payload platform)).2 = .ok outcome ∧
      ∀ response, outcome = .ok response → response.Aligned tokens

/-- The accounts of a batch: each platform was handed its tokens if it is available, and the result
is the sum of what they were answered. -/
structure Accounts (ucans : List JsValue) (validations : List UcanValidationResult)
    (ios android : Delivery) (result : SendBatchPushResult) : Prop where
  ios_tokens : ios.tokens = tokensFor false validations
  android_tokens : android.tokens = tokensFor true validations
  ios_asked : ios.outcome.isSome = true ↔ config.iosAvailable = true ∧ ios.tokens ≠ []
  android_asked : android.outcome.isSome = true ↔ config.androidAvailable = true ∧ android.tokens ≠ []
  invalidTokens : result.invalidTokens.getD [] = ios.refused ++ android.refused
  success : result.success = true ↔ ucans = [] ∨ 0 < ios.accepted + android.accepted

/-! ## Validation -/

theorem validateUcan_neverThrows (token : JsValue) :
    NeverThrows (validateUcan config token : PushM Blob UcanValidationResult) := by
  unfold validateUcan
  split
  · trivial
  · refine neverThrows_tryCatch ?_ _
    intro e
    trivial

variable (around : PushAround Blob)

/-- The buckets are the filtered validations. -/
theorem observe_bucketTokens (ucans : List JsValue)
    (answered : List (Answered PushCommand PushCommand.Answer HandlerError)) (w : PushWorld Blob) :
    ∃ answered₁ w₁ validations,
      observe around (validateAll config ucans) answered w = ⟨answered₁, w₁, .ok validations⟩ ∧
      observe around (bucketTokens config ucans) answered w =
        ⟨answered₁, w₁, .ok (tokensFor false validations, tokensFor true validations)⟩ := by
  induction ucans generalizing answered w with
  | nil => exact ⟨answered, w, [], rfl, rfl⟩
  | cons ucan ucans ih =>
    obtain ⟨answered₁, w₁, validation, validated⟩ :=
      (validateUcan_neverThrows config ucan).observe answered w
    obtain ⟨answered₂, w₂, validations, rest, buckets⟩ := ih answered₁ w₁
    refine ⟨answered₂, w₂, validation :: validations, ?_, ?_⟩
    · rw [validateAll, observe_bind _ validated, observe_bind _ rest]
      rfl
    · rw [bucketTokens, observe_bind _ validated, observe_bind _ buckets]
      cases valid : validation.valid && !validation.deviceToken.isNullish with
      | false => simp [tokensFor, UcanValidationResult.isFor, valid]
      | true =>
        cases android : validation.platform.strictEquals (.string "android") with
        | false => simp [tokensFor, UcanValidationResult.isFor, valid, android]
        | true => simp [tokensFor, UcanValidationResult.isFor, valid, android]

/-! ## Delivery -/

theorem invalidTokens_cons (token : JsValue) (tokens : List JsValue)
    (response : Option (Option String)) (responses : List (Option (Option String))) :
    invalidTokens (token :: tokens) (response :: responses) =
      (if isRefusal response then [token] else []) ++ invalidTokens tokens responses := by
  unfold invalidTokens isRefusal
  rw [List.zip_cons_cons, List.filterMap_cons]
  split
  · next none_ =>
    split at none_
    · cases none_
    · cases none_
    · next other₁ other₂ =>
      split
      · next code =>
        have unknown : INVALID_TOKEN_CODES.contains code = false := by
          simp only [INVALID_TOKEN_CODES, List.contains_cons, List.contains_nil, Bool.or_false,
            Bool.or_eq_false_iff, beq_eq_false_iff_ne]
          exact ⟨fun same => other₁ (by rw [same]), fun same => other₂ (by rw [same])⟩
        rw [if_neg (by rw [unknown]; exact Bool.false_ne_true), List.nil_append]
      · rfl
  · next some_ =>
    split at some_
    · next first =>
      cases some_
      dsimp only at first
      subst first
      rfl
    · next first =>
      cases some_
      dsimp only at first
      subst first
      rfl
    · cases some_

/-- The tokens that the loop collects are those whose response refuses them. -/
theorem invalidTokens_eq_refused (response : BatchResponse) (tokens : List JsValue) (i : Nat)
    (responses : List (Option (Option String))) (rest : response.responses.drop i = responses)
    (length_eq : responses.length = tokens.length) :
    invalidTokens tokens responses =
      ((tokens.zipIdx i).filter fun token => response.refuses token.2).map Prod.fst := by
  induction tokens generalizing i responses with
  | nil => simp [invalidTokens]
  | cons token tokens ih =>
    cases responses with
    | nil => simp at length_eq
    | cons first responses =>
      have here : response.responses[i]? = some first := by
        rw [← List.head?_drop, rest, List.head?_cons]
      have later : response.responses.drop (i + 1) = responses := by
        rw [← List.tail_drop, rest, List.tail_cons]
      have refuses : response.refuses i = isRefusal first := by
        rw [BatchResponse.refuses, here, Option.any_some]
      rw [invalidTokens_cons, ih (i + 1) responses later (by simpa using length_eq),
        List.zipIdx_cons, List.filter_cons, refuses]
      cases isRefusal first <;> rfl

/-- A platform is asked if it is available and there is a token for it. -/
theorem observe_startMulticast (request : PushRequest) (tokens : List JsValue) (platform : JsValue)
    (answered : List (Answered PushCommand PushCommand.Answer HandlerError)) (w : PushWorld Blob) :
    ∃ started w₁, observe around (startMulticast config request tokens platform) answered w =
        ⟨answered, w₁, .ok started⟩ ∧
      (started = true ↔ isAvailable config platform = true ∧ tokens ≠ []) := by
  unfold startMulticast
  cases started : isAvailable config platform && !tokens.isEmpty with
  | false => exact ⟨false, w, rfl, by simpa using started⟩
  | true => exact ⟨true, _, rfl, by simpa using started⟩

variable {around}

/-- What FCM answers is told, and a failure is told as no notification accepted. -/
theorem observe_finishMulticast (fcm : FcmAnswers around) (tokens : List JsValue)
    (payload : PushPayload) (platform : JsValue) (started : Bool)
    (answered : List (Answered PushCommand PushCommand.Answer HandlerError)) (w : PushWorld Blob) :
    ∃ (delivery : Delivery) (w₁ : PushWorld Blob) (result : MulticastPushResult),
      delivery.tokens = tokens ∧ delivery.outcome.isSome = started ∧
      observe around (finishMulticast tokens payload platform started) answered w =
        ⟨answered ++ delivery.asked payload platform, w₁, .ok result⟩ ∧
      result.successCount = delivery.accepted ∧ result.invalidTokens = delivery.refused := by
  cases started with
  | false =>
    refine ⟨⟨tokens, none⟩, w, ⟨0, tokens.length, []⟩, rfl, rfl, ?_, rfl, rfl⟩
    simp [finishMulticast, Delivery.asked]
  | true =>
    obtain ⟨outcome, answer, aligned⟩ := fcm answered w tokens payload platform
    have asked : observe around
        (Async.send (PushCommand.sendEachForMulticast tokens payload platform)) answered w =
          ⟨answered ++ [⟨.sendEachForMulticast tokens payload platform, .ok outcome⟩],
            (around answered w (.sendEachForMulticast tokens payload platform)).1, .ok outcome⟩ := by
      rw [observe_send, answer]
    rw [finishMulticast, if_pos rfl, observe_bind _ asked]
    cases outcome with
    | error e => exact ⟨⟨tokens, some (.error e)⟩, _, _, rfl, rfl, rfl, rfl, rfl⟩
    | ok response =>
      obtain ⟨length_eq, success_eq, -⟩ := aligned response rfl
      exact ⟨⟨tokens, some (.ok response)⟩, _, _, rfl, rfl, rfl, success_eq,
        invalidTokens_eq_refused response tokens 0 _ List.drop_zero length_eq⟩

variable {config}

/-- The result of a batch that was asked for is the sum of the two deliveries. -/
theorem accounts_of_results {ucan : JsValue} {ucans : List JsValue}
    {validations : List UcanValidationResult} {ios android : Delivery} {success : Bool}
    {error : Option String}
    (ios_tokens : ios.tokens = tokensFor false validations)
    (android_tokens : android.tokens = tokensFor true validations)
    (ios_asked : ios.outcome.isSome = true ↔
      isAvailable config (.string "ios") = true ∧ tokensFor false validations ≠ [])
    (android_asked : android.outcome.isSome = true ↔
      isAvailable config (.string "android") = true ∧ tokensFor true validations ≠ [])
    (counted : success = true ↔ 0 < ios.accepted + android.accepted) :
    Accounts config (ucan :: ucans) validations ios android
      { success := success, error := error
        invalidTokens := some (ios.refused ++ android.refused) } where
  ios_tokens := ios_tokens
  android_tokens := android_tokens
  ios_asked := by rw [ios_tokens]; exact ios_asked
  android_asked := by rw [android_tokens]; exact android_asked
  invalidTokens := rfl
  success := by simpa using counted

/-- **The accounts of a batch**: whatever the validations, the availability and the answers of FCM,
each platform is handed the tokens of the UCANs that are valid for it, and the result is the sum of
what the two were answered. -/
theorem sendBatchPush_accounts (fcm : FcmAnswers around) (request : PushRequest)
    {ucans : List JsValue} (few : ucans.length ≤ QPS_MAX_BATCH_UCANS) (title body data : JsValue)
    (w : PushWorld Blob) :
    ∃ validated w₁ validations ios android w₂ result,
      observe around (validateAll config ucans) [] w = ⟨validated, w₁, .ok validations⟩ ∧
      observe around (sendBatchPush config request ucans title body data) [] w =
        ⟨validated ++ ios.asked (makePayload (.string "ios") title body data) (.string "ios") ++
            android.asked (makePayload (.string "android") title body data) (.string "android"),
          w₂, .ok result⟩ ∧
      Accounts config ucans validations ios android result := by
  cases ucans with
  | nil =>
    refine ⟨[], w, [], ⟨[], none⟩, ⟨[], none⟩, w, { success := true }, rfl, rfl, ?_⟩
    constructor <;> simp [tokensFor, Delivery.refused]
  | cons ucan ucans =>
    obtain ⟨validated, w₁, validations, all, buckets⟩ :=
      observe_bucketTokens config around (ucan :: ucans) [] w
    rw [sendBatchPush, if_neg (by simp), if_neg (by omega), observe_bind _ buckets]
    dsimp only
    by_cases none_ : (tokensFor false validations).length + (tokensFor true validations).length = 0
    · have noIos : tokensFor false validations = [] := List.eq_nil_of_length_eq_zero (by omega)
      have noAndroid : tokensFor true validations = [] := List.eq_nil_of_length_eq_zero (by omega)
      rw [if_pos none_]
      refine ⟨validated, w₁, validations, ⟨[], none⟩, ⟨[], none⟩, w₁,
        { success := false, error := some QpsErrorReason.NoValidDeviceTokens.text }, all, ?_, ?_⟩
      · simp [Delivery.asked]
      · constructor <;> simp [noIos, noAndroid, Delivery.refused, Delivery.accepted]
    · rw [if_neg none_]
      obtain ⟨iosStarted, w₂, iosRun, iosAsked⟩ := observe_startMulticast config around request
        (tokensFor false validations) (.string "ios") validated w₁
      obtain ⟨androidStarted, w₃, androidRun, androidAsked⟩ := observe_startMulticast config around
        request (tokensFor true validations) (.string "android") validated w₂
      obtain ⟨ios, w₄, iosResult, iosTokens, rfl, iosTold, iosCount, iosInvalid⟩ :=
        observe_finishMulticast fcm (tokensFor false validations)
          (makePayload (.string "ios") title body data) (.string "ios") iosStarted validated w₃
      obtain ⟨android, w₅, androidResult, androidTokens, rfl, androidTold, androidCount,
          androidInvalid⟩ :=
        observe_finishMulticast fcm (tokensFor true validations)
          (makePayload (.string "android") title body data) (.string "android") androidStarted
          (validated ++ ios.asked (makePayload (.string "ios") title body data) (.string "ios")) w₄
      rw [observe_bind _ iosRun, observe_bind _ androidRun, observe_bind _ iosTold,
        observe_bind _ androidTold, iosCount, androidCount, iosInvalid, androidInvalid]
      by_cases nothing : ios.accepted + android.accepted = 0
      · rw [if_pos nothing]
        exact ⟨validated, w₁, validations, ios, android, w₅, _, all, rfl,
          accounts_of_results iosTokens androidTokens iosAsked androidAsked (by simp; omega)⟩
      · rw [if_neg nothing]
        exact ⟨validated, w₁, validations, ios, android, w₅, _, all, rfl,
          accounts_of_results iosTokens androidTokens iosAsked androidAsked (by simp; omega)⟩

/-! ## One platform fails -/

/-- Each token says which device it is for; a token is its own device token, and is for Android if it
says so. -/
def deviceUcans : Ucans where
  build _ _ := ""
  parse
    | .string "android" => .ok (qpsPayload "qps" (.string "android") .null (.string "android") .null)
    | .string token => .ok (qpsPayload "qps" (.string token) .null (.string "ios") .null)
    | _ => .error .typeError

def deviceConfig : QpsConfig where
  ucans := deviceUcans
  qpsDid := some "qps"
  iosAvailable := true
  androidAvailable := true
  typeErrorText := ""

/-- FCM throws for iOS; for Android it accepts no token, and says of each that it is not registered. -/
def iosFails : PushAround Unit := fun _ w c =>
  (w, match c with
    | .get _ => .ok none
    | .build _ _ => .ok ""
    | .validate _ => .ok ()
    | .send _ _ _ => .ok (.ok ())
    | .sendEachForMulticast tokens payload _ =>
      .ok (if payload.title.isNullish then
        .ok { successCount := 0
              failureCount := tokens.length
              responses := tokens.map fun _ =>
                some (some "messaging/registration-token-not-registered") }
      else .error { code := none, message := "unavailable" }))

theorem iosFails_answers : FcmAnswers iosFails := by
  intro answered w tokens payload platform
  refine ⟨_, rfl, fun response returned => ?_⟩
  split at returned
  · cases returned
    constructor <;> simp [List.countP_replicate]
  · cases returned

/-- A batch of three, with one platform failing. -/
theorem sendBatchPush_accounts_iosFails :
    ∃ validated w₁ validations ios android w₂ result,
      observe iosFails (validateAll deviceConfig [.string "a", .string "android", .string "b"]) []
          (PushState.fresh fun _ => none).world = ⟨validated, w₁, .ok validations⟩ ∧
      observe iosFails
          (sendBatchPush deviceConfig ⟨"s", 0⟩ [.string "a", .string "android", .string "b"]
            .undefined .undefined .undefined) [] (PushState.fresh fun _ => none).world =
        ⟨validated ++
            ios.asked (makePayload (.string "ios") .undefined .undefined .undefined) (.string "ios") ++
            android.asked (makePayload (.string "android") .undefined .undefined .undefined)
              (.string "android"),
          w₂, .ok result⟩ ∧
      Accounts deviceConfig [.string "a", .string "android", .string "b"] validations ios android
        result :=
  sendBatchPush_accounts iosFails_answers ⟨"s", 0⟩ (by decide) .undefined .undefined .undefined _

end

end QuietStorage.Qps
