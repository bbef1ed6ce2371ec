import QuietStorage.Qps.Delivery

/-!
# Qps.Authorized — whose devices are notified, and on whose behalf

A token is built for a socket that is signed into the team, and a device is notified for a socket that
is signed into the team of its token. Both are checked before an await, so neither is known at the
moment of the deed: what `push_authorized` guarantees of every device token that is handed to FCM is
that the socket had a joined connection at some moment of the handling of its request, for the request
that notifies and for the one that registered.
-/

set_option autoImplicit false

namespace QuietStorage.Qps

open Lib Communities Websocket
open Sync (AuthStatus)

section
variable {Blob : Type} {config : QpsConfig} {t : RequestId} {w : PushWorld Blob}
  {request : PushRequest}

/-! ## The handlers -/

/-- A program of a handler, with the services in their place. -/
abbrev MeetsServed {α : Type} (config : QpsConfig) (request : PushRequest) (t : RequestId)
    (Q : PushWorld Blob → Except HandlerError α → Prop) (m : GatewayM Blob α)
    (w : PushWorld Blob) : Prop :=
  MeetsPush config t Q (m.interpret PushWorld.gateway PushWorld.setGateway (serve config request)) w

/-- One step of a handler and the rest, where nothing is asked of the end. -/
theorem first_served {α β : Type} {Q : PushWorld Blob → Except HandlerError α → Prop}
    {m : GatewayM Blob α} {f : α → GatewayM Blob β} (inv : PushInv config w)
    (first : MeetsServed config request t Q m w)
    (next : ∀ w' a, PushInv config w' → w.Grows w' → Q w' (.ok a) →
      MeetsServed config request t (fun _ _ => True) (f a) w') :
    MeetsServed config request t (fun _ _ => True) (m >>= f) w :=
  meets_interpret_bind (D := pushDiscipline config) inv first next fun _ _ _ _ _ => trivial

theorem handled_served {α : Type} {m : GatewayM Blob α} {h : HandlerError → GatewayM Blob α}
    (inv : PushInv config w) (body : MeetsServed config request t (fun _ _ => True) m w)
    (caught : ∀ w' e, PushInv config w' →
      MeetsServed config request t (fun _ _ => True) (h e) w') :
    MeetsServed config request t (fun _ _ => True) (MonadExcept.tryCatch m h) w :=
  meets_interpret_tryCatch (D := pushDiscipline config) inv body (fun _ _ _ _ _ => trivial)
    fun w' e inv' _ _ => caught w' e inv'

theorem js_served {α : Type} (r : Except TypeError α) :
    MeetsServed config request t (fun _ _ => True) (js r : GatewayM Blob α) w :=
  meets_interpret_ofExcept trivial

/-- A response changes neither the manager nor the record. -/
theorem respond_served {handler : HandlerConfig} {event : WebsocketEvents} {callback : JsValue}
    {status : CommunityOperationStatus} {reason : Option String} {payload : Option JsValue}
    (inv : PushInv config w) :
    MeetsServed config request t (fun _ _ => True)
      (respond handler event callback status reason payload) w := by
  have inv' : PushInv config (w.setGateway (w.gateway.settle handler.request)) := inv.setGateway rfl
  refine meets_interpret_modify_bind (D := pushDiscipline config) inv'
    (acts_push (PushWorld.grows_setGateway rfl)) ?_
  refine meets_interpret_get_bind (D := pushDiscipline config) inv' rfl ?_
  split
  · exact meets_interpret_modify (D := pushDiscipline config) (PushInv.setGateway inv' rfl)
      (acts_push (PushWorld.grows_setGateway rfl)) trivial
  · trivial

variable {handler : HandlerConfig}

/-- What the handler found out about its socket. -/
def FoundJoined (request : PushRequest) (teamId : JsValue) (w : PushWorld Blob)
    (r : Except HandlerError Bool) : Prop :=
  r = .ok true → ∃ T, teamId = .string T ∧
    w.JoinedBetween request.socketId T request.since w.now

theorem FoundJoined.of_false {teamId : JsValue} : FoundJoined request teamId w (.ok false) := by
  intro isTrue
  cases isTrue

/-- A connection that was found on the socket and is joined is one for the team that was asked for. -/
theorem joined_of_connectionOf {community : Option ManagedCommunity} {teamId userId : JsValue}
    {connection : AuthConnection} (inv : PushInv config w) (found : FoundFor teamId community)
    (isConnection : w.gateway.connectionOf community userId = some connection)
    (isJoined : w.gateway.manager.status connection = .JOINED) :
    ∃ T, teamId = .string T ∧ Joined w.gateway.manager connection.socketId T := by
  cases userId with
  | string userId =>
    obtain ⟨m, isCommunity, isConnection⟩ := Option.bind_eq_some_iff.mp isConnection
    obtain ⟨ref, isRef, mapped⟩ := Option.bind_eq_some_iff.mp isConnection
    obtain ⟨T, isTeam, madeFor⟩ := found m isCommunity
    have community := (inv.wired.mapped ref userId connection mapped).2.1
    exact ⟨T, isTeam, ref, userId, connection, mapped, community.trans (madeFor ref isRef), rfl,
      isJoined⟩
  | _ => cases isConnection

theorem hasJoinedAuthConnection_served (inv : PushInv config w) (teamId : JsValue)
    (own : handler.socketId = request.socketId) (began : request.since ≤ w.now) :
    MeetsServed config request t (FoundJoined request teamId)
      (hasJoinedAuthConnection handler teamId) w := by
  refine meets_interpret_get_bind (D := pushDiscipline config) inv rfl ?_
  dsimp only
  split
  · exact FoundJoined.of_false
  · refine meets_interpret_bind (D := pushDiscipline config) inv
      (meets_interpret_send (get_meets teamId)) ?_ fun _ _ _ _ _ isTrue => by cases isTrue
    intro w' community inv' grown found
    refine meets_interpret_get_bind (D := pushDiscipline config) inv' rfl ?_
    split
    · exact FoundJoined.of_false
    · next connection isConnection =>
      intro isTrue
      have checked := Bool.and_eq_true_iff.mp (Except.ok.inj isTrue)
      obtain ⟨T, isTeam, isJoined⟩ := joined_of_connectionOf inv' (found community rfl)
        isConnection (of_decide_eq_true checked.2)
      have onSocket := (of_decide_eq_true checked.1).trans own
      rw [onSocket] at isJoined
      exact ⟨T, isTeam, Timeline.Sometime.of_now isJoined (began.trans grown.now)⟩

theorem isAuthorizedForTeam_served (inv : PushInv config w) (teamId : JsValue)
    (own : handler.socketId = request.socketId) (began : request.since ≤ w.now) :
    MeetsServed config request t (FoundJoined request teamId)
      (isAuthorizedForTeam handler teamId) w := by
  refine meets_interpret_tryCatch (D := pushDiscipline config) inv
    (hasJoinedAuthConnection_served inv teamId own began) (fun _ _ _ _ found => found) ?_
  intro w' e inv' _ _
  -- what was thrown is logged, and the answer is no
  cases teamId.text with
  | ok text => exact FoundJoined.of_false
  | error e => exact fun isTrue => by cases isTrue

theorem isAuthorizedForUcan_served (inv : PushInv config w) (teamId : JsValue)
    (own : handler.socketId = request.socketId) (began : request.since ≤ w.now) :
    MeetsServed config request t (FoundJoined request teamId)
      (isAuthorizedForUcan handler teamId) w := by
  unfold isAuthorizedForUcan
  split
  · exact FoundJoined.of_false
  · exact isAuthorizedForTeam_served inv teamId own began

theorem handleRegisterDevice_served (roundTrips : config.ucans.RoundTrips) (inv : PushInv config w)
    (message callback : JsValue) (own : handler.socketId = request.socketId)
    (began : request.since ≤ w.now) :
    MeetsServed config request t (fun _ _ => True)
      (handleRegisterDevice handler message callback) w := by
  refine handled_served inv ?_ fun w' _ inv' => respond_served inv'
  refine first_served inv (js_served _) fun w₁ payload inv₁ grown₁ _ => ?_
  refine first_served inv₁ (js_served _) fun w₂ deviceToken inv₂ grown₂ _ => ?_
  refine first_served inv₂ (js_served _) fun w₃ bundleId inv₃ grown₃ _ => ?_
  refine first_served inv₃ (js_served _) fun w₄ platform inv₄ grown₄ _ => ?_
  refine first_served inv₄ (js_served _) fun w₅ teamId inv₅ grown₅ _ => ?_
  have began₅ := began.trans
    (grown₁.trans (grown₂.trans (grown₃.trans (grown₄.trans grown₅)))).now
  refine first_served inv₅ (isAuthorizedForTeam_served inv₅ teamId own began₅)
    fun w₆ authorized inv₆ _ found => ?_
  split
  · exact respond_served inv₆
  · next isAuthorized =>
    obtain ⟨T, rfl, joined⟩ := found (by rw [Bool.eq_true_of_not_eq_false isAuthorized])
    refine first_served inv₆ (meets_interpret_send
      (registerDevice_meets roundTrips inv₆ joined)) fun w₇ result inv₇ _ _ => ?_
    split <;> exact respond_served inv₇

/-- A token that was found valid, for a team that the socket was found joined for. -/
theorem cleared_of_found {token : JsValue} {info : UcanValidationResult} {w' : PushWorld Blob}
    (valid : ValidSays config token w (.ok info)) (isValid : info.valid = true)
    (grown : w.Grows w') (found : FoundJoined request info.teamId w' (.ok true)) :
    Cleared config w' request token := by
  obtain ⟨teamId, isTeam, said⟩ := valid info rfl isValid
  obtain ⟨T, isTeam', joined⟩ := found rfl
  rw [isTeam] at isTeam'
  cases isTeam'
  exact ⟨info.deviceToken, teamId, said.mono grown, joined⟩

theorem handleSendPush_served (inv : PushInv config w) (message callback : JsValue)
    (own : handler.socketId = request.socketId) (began : request.since ≤ w.now) :
    MeetsServed config request t (fun _ _ => True) (handleSendPush handler message callback) w := by
  refine handled_served inv ?_ fun w' _ inv' => respond_served inv'
  refine first_served inv (js_served _) fun w₁ payload inv₁ grown₁ _ => ?_
  refine first_served inv₁ (js_served _) fun w₂ ucan inv₂ grown₂ _ => ?_
  refine first_served inv₂ (meets_interpret_send (validateUcan_meets inv₂ ucan))
    fun w₃ info inv₃ grown₃ valid => ?_
  split
  · exact respond_served inv₃
  · next isValid =>
    have isValid := Bool.eq_true_of_not_eq_false isValid
    have began₃ := began.trans (grown₁.trans (grown₂.trans grown₃)).now
    refine first_served inv₃ (isAuthorizedForUcan_served inv₃ info.teamId own began₃)
      fun w₄ authorized inv₄ grown₄ found => ?_
    split
    · exact respond_served inv₄
    · next isAuthorized =>
      rw [Bool.eq_true_of_not_eq_false isAuthorized] at found
      have cleared := cleared_of_found valid isValid grown₄ found
      refine first_served inv₄ (js_served _) fun w₅ title inv₅ grown₅ _ => ?_
      refine first_served inv₅ (js_served _) fun w₆ body inv₆ grown₆ _ => ?_
      refine first_served inv₆ (js_served _) fun w₇ data inv₇ grown₇ _ => ?_
      have cleared := cleared.mono (grown₅.trans (grown₆.trans grown₇))
      refine first_served inv₇ (meets_interpret_send (sendPush_meets title body data inv₇ cleared))
        fun w₈ result inv₈ _ _ => ?_
      split
      · exact respond_served inv₈
      · split <;> exact respond_served inv₈

/-- The UCANs of a batch that are left may be used. -/
theorem authorizedUcans_served (ucans : List JsValue) (inv : PushInv config w)
    (own : handler.socketId = request.socketId) (began : request.since ≤ w.now) :
    MeetsServed config request t
      (fun w' r => ∀ authorized, r = .ok authorized →
        ∀ ucan ∈ authorized, Cleared config w' request ucan)
      (authorizedUcans handler ucans) w := by
  induction ucans generalizing w with
  | nil =>
    rintro _ ⟨⟩ ucan mem
    exact absurd mem List.not_mem_nil
  | cons ucan ucans ih =>
    refine meets_interpret_bind (D := pushDiscipline config) inv
      (meets_interpret_send (validateUcan_meets inv ucan)) ?_ fun _ _ _ _ _ _ isOk => by cases isOk
    intro w₁ info inv₁ grown₁ valid
    have began₁ := began.trans grown₁.now
    have checked : MeetsServed config request t
        (fun w' r => (r = .ok true → info.valid = true) ∧ FoundJoined request info.teamId w' r)
        (if info.valid then isAuthorizedForUcan handler info.teamId else pure false) w₁ := by
      split
      · next isValid =>
        exact (isAuthorizedForUcan_served inv₁ info.teamId own began₁).imp
          (D := pushDiscipline config) inv₁ fun _ _ _ _ found => ⟨fun _ => isValid, found⟩
      · exact ⟨fun isTrue => (by cases isTrue), FoundJoined.of_false⟩
    refine meets_interpret_bind (D := pushDiscipline config) inv₁ checked ?_
      fun _ _ _ _ _ _ isOk => by cases isOk
    intro w₂ authorized inv₂ grown₂ found
    refine meets_interpret_bind (D := pushDiscipline config) inv₂
      (ih inv₂ (began₁.trans grown₂.now)) ?_ fun _ _ _ _ _ _ isOk => by cases isOk
    rintro w₃ rest inv₃ grown₃ cleared _ ⟨⟩
    have cleared := cleared rest rfl
    split
    · next isAuthorized =>
      rw [isAuthorized] at found
      have own := (cleared_of_found valid (found.1 rfl) grown₂ found.2).mono grown₃
      exact List.forall_mem_cons.mpr ⟨own, cleared⟩
    · exact cleared

theorem handleSendBatchPush_served (inv : PushInv config w) (message callback : JsValue)
    (own : handler.socketId = request.socketId) (began : request.since ≤ w.now) :
    MeetsServed config request t (fun _ _ => True)
      (handleSendBatchPush handler message callback) w := by
  refine handled_served inv ?_ fun w' _ inv' => respond_served inv'
  refine first_served inv (js_served _) fun w₁ payload inv₁ grown₁ _ => ?_
  refine first_served inv₁ (js_served _) fun w₂ ucans inv₂ grown₂ _ => ?_
  split
  · exact respond_served inv₂
  · next ucans _ =>
    split
    · exact respond_served inv₂
    · have began₂ := began.trans (grown₁.trans grown₂).now
      refine first_served inv₂ (authorizedUcans_served ucans inv₂ own began₂)
        fun w₃ authorized inv₃ grown₃ cleared => ?_
      have cleared := cleared authorized rfl
      split
      · exact respond_served inv₃
      · refine first_served inv₃ (js_served _) fun w₄ title inv₄ grown₄ _ => ?_
        refine first_served inv₄ (js_served _) fun w₅ body inv₅ grown₅ _ => ?_
        refine first_served inv₅ (js_served _) fun w₆ data inv₆ grown₆ _ => ?_
        have cleared := fun ucan mem =>
          (cleared ucan mem).mono (grown₄.trans (grown₅.trans grown₆))
        refine first_served inv₆ (meets_interpret_send
          (sendBatchPush_meets title body data inv₆ cleared)) fun w₇ result inv₇ _ _ => ?_
        split <;> exact respond_served inv₇

/-- Every message is handled within the invariant. -/
theorem qpsMessage_meets (roundTrips : config.ucans.RoundTrips) (call : QpsMessage)
    (inv : PushInv config w) :
    Finishes (pushDiscipline config) (performPush config) t (call.program config t) w := by
  refine meets_get_bind (D := pushDiscipline config) inv ?_
  have handled : MeetsServed config ⟨call.socketId, w.now⟩ t (fun _ _ => True)
      (call.handler t) w := by
    unfold QpsMessage.handler
    split
    · exact handleRegisterDevice_served roundTrips inv call.message call.callback rfl le_rfl
    · exact handleSendPush_served inv call.message call.callback rfl le_rfl
    · exact handleSendBatchPush_served inv call.message call.callback rfl le_rfl
  exact handled

/-! ## Runs -/

/-- The step lemma. -/
theorem safe_pushStep {lfa : Lfa Blob} (roundTrips : config.ucans.RoundTrips)
    {m m' : PushState Blob} {move : PushMove Blob}
    (safe : Safe (pushDiscipline config) (performPush config) m)
    (taken : pushStep config lfa m move = some m') :
    Safe (pushDiscipline config) (performPush config) m' := by
  refine (safe_step (S := fun _ _ _ => True) ?_ ?_ safe (fun _ _ _ => trivial) taken).1
  · exact fun t call w inv _ _ => qpsMessage_meets roundTrips call inv
  · intro w event w' inv moved
    have moves : PushInv config w' ∧ w.Grows w' := by
      cases event with
      | attributed socketId teamId userId source =>
        cases moved
        exact ⟨inv.setGateway rfl, PushWorld.grows_setGateway rfl⟩
      | manager action =>
        have stepped : (step lfa w.gateway.manager action).map w.moveManager = some w' := by
          cases action <;> first | exact moved | cases moved
        obtain ⟨manager, isStep, rfl⟩ := Option.map_eq_some_iff.mp stepped
        exact ⟨inv.moveManager (wired_step inv.wired isStep), w.grows_moveManager manager⟩
    exact ⟨moves.1, moves.2, fun _ => trivial⟩

theorem safe_fresh_push (stored : TeamId → Option Blob) :
    Safe (pushDiscipline config) (performPush config) (.fresh stored : PushState Blob) := by
  refine safe_start ⟨.start stored, ?_, ?_⟩ fun _ => trivial
  · exact fun _ mem => absurd mem List.not_mem_nil
  · exact fun _ mem => absurd mem List.not_mem_nil

end

/-- **Push authorisation, end to end**: in every state of every run of sign-ins, LFA events,
disconnects and push messages, from any sockets and with any tokens, every device token that was handed
to FCM was authorized. -/
theorem push_authorized {Blob : Type} (config : QpsConfig) (lfa : Lfa Blob)
    (roundTrips : config.ucans.RoundTrips) (stored : TeamId → Option Blob)
    (moves : List (PushMove Blob)) :
    Throughout (pushStep config lfa) (fun m => PushAuthorized m.world) (.fresh stored) moves := by
  have along : Along (pushStep config lfa) (fun _ _ => True) (.fresh stored) moves :=
    along_of_keeps (fun _ _ _ safe taken => safe_pushStep roundTrips safe taken)
      (fun _ _ _ => trivial) (safe_fresh_push stored)
  exact throughout_of_along (fun _ _ _ safe _ taken => safe_pushStep roundTrips safe taken)
    (fun _ safe => safe.inv.handed) (safe_fresh_push stored) along

/-! ## A device that is registered and notified -/

/-- What QPS builds for the device of the sample. -/
def samplePayload : UcanPayload :=
  qpsPayload "did:key:qps" (.string "device") (.string "bundle") (.string "ios") (.string "team")

def isSample (payload : UcanPayload) : Bool :=
  match payload with
  | ⟨iss, aud, exp, [⟨⟨scheme, .string deviceToken⟩, ⟨space, segments⟩⟩],
      some [⟨.string bundleId, .string platform, .string teamId⟩]⟩ =>
    iss = "did:key:qps" ∧ aud = "did:key:qps" ∧ exp = FAR_FUTURE_EXPIRATION ∧ scheme = "fcm" ∧
      deviceToken = "device" ∧ space = "push" ∧ segments = ["send"] ∧ bundleId = "bundle" ∧
      platform = "ios" ∧ teamId = "team"
  | _ => false

theorem eq_of_isSample {payload : UcanPayload} (is : isSample payload = true) :
    payload = samplePayload := by
  unfold isSample at is
  split at is
  · obtain ⟨rfl, rfl, rfl, rfl, rfl, rfl, rfl, rfl, rfl, rfl⟩ := of_decide_eq_true is
    rfl
  · cases is

/-- A library that knows the token of the sample, and parses no other. -/
def sampleUcans : Ucans where
  build := fun payload _ => if isSample payload then "ucan" else "other"
  parse := fun token =>
    if token.strictEquals (.string "ucan") then .ok samplePayload
    else .error (.service (.error "Can't parse"))

theorem sampleUcans_roundTrips : sampleUcans.RoundTrips := by
  intro payload n parsed parses
  cases is : isSample payload with
  | true =>
    rw [eq_of_isSample is] at parses ⊢
    exact (Except.ok.inj parses).symm
  | false =>
    simp only [sampleUcans, is] at parses
    cases parses

def sampleConfig : QpsConfig where
  ucans := sampleUcans
  qpsDid := some "did:key:qps"
  iosAvailable := true
  androidAvailable := true
  typeErrorText := "TypeError"

def sampleLfa : Lfa Team := .plain fun _ => ["alice"]

def sampleStored : TeamId → Option Team := fun _ => some { id := "team", links := ∅ }

/-- The connection with the serial number `n`. -/
def sampleConnection (n : Nat) : AuthConnection where
  id := n
  userId := "alice"
  communityId := "team"
  sigChain := { id := 0, teamId := "team", listens := true }
  socketId := "socket"

def sampleEnv : State.Env := { closes := true, dies := false, now := 0 }

/-- The socket signs in, and its team is loaded from storage. -/
def signInMoves : List (PushMove Team) :=
  [.outside (.manager (.get 0 (.signIn "team" "alice" "socket") false)),
    .outside (.manager (.communityRead 0 true)), .outside (.manager (.keysRetrieved 0 true)),
    .outside (.manager (.resume 0 sampleEnv)),
    .outside (.manager (.connected (sampleConnection 2) "alice")),
    .outside (.attributed "socket" (.string "team") (.string "alice") .SignInCommunity)]

/-- `get` of the team, for the request that is task `t`, and the request goes on. -/
def getMoves (t : Nat) : List (PushMove Team) :=
  [.outside (.manager (.get 0 (.reader "team") false)), .perform t (.returned 0), .resume t]

/-- A device is registered, up to where the token is being built. -/
def registerMoves : List (PushMove Team) :=
  .start 0
    { event := .RegisterDevice
      socketId := "socket"
      message := .object [("payload", .object
        [("deviceToken", .string "device"), ("bundleId", .string "bundle"),
          ("platform", .string "ios"), ("teamId", .string "team")])]
      callback := .function } :: getMoves 0

def builtMoves : List (PushMove Team) := [.perform 0 (.built 0), .resume 0]

/-- The device is notified. -/
def sendMoves : List (PushMove Team) :=
  [.start 1
    { event := .SendPush
      socketId := "socket"
      message := .object [("payload", .object [("ucan", .string "ucan")])]
      callback := .function },
    .perform 1 .accepts, .resume 1] ++ getMoves 1 ++ [.perform 1 .accepts, .resume 1]

/-- A device is registered and notified. -/
theorem push_authorized_sample :
    (run (pushStep sampleConfig sampleLfa) (.fresh sampleStored)
        (signInMoves ++ registerMoves ++ builtMoves ++ sendMoves)).map
      (·.world.handed.length) = some 1 ∧
    Throughout (pushStep sampleConfig sampleLfa) (fun m => PushAuthorized m.world)
      (.fresh sampleStored) (signInMoves ++ registerMoves ++ builtMoves ++ sendMoves) :=
  ⟨rfl, push_authorized sampleConfig sampleLfa sampleUcans_roundTrips sampleStored _⟩

/-! ## The moment of the mint -/

section
variable {Blob : Type}

/-- A token for the device and the team was built before `till`, for a socket that was joined at the
moment it was built. -/
def RegisteredWhileJoined (w : PushWorld Blob) (deviceToken : JsValue) (teamId : TeamId) (till : Nat) :
    Prop :=
  ∃ minted ∈ w.minted, minted.time ≤ till ∧ Names minted.payload deviceToken teamId ∧
    w.JoinedBetween minted.request.socketId teamId minted.time minted.time

/-- What `PushAuthorized` says, with the socket still joined when its token was built. -/
def AuthorizedAtMint (w : PushWorld Blob) : Prop :=
  ∀ handed ∈ w.handed, ∃ teamId,
    RegisteredWhileJoined w handed.deviceToken teamId handed.time ∧
      w.JoinedBetween handed.request.socketId teamId handed.request.since handed.time

end

/-- The socket disconnects, and signs in once more. -/
def signInAgainMoves : List (PushMove Team) :=
  [.outside (.manager (.get 0 (.signIn "team" "alice" "socket") false)),
    .outside (.manager (.resume 0 sampleEnv)),
    .outside (.manager (.connected (sampleConnection 3) "alice"))]

/-- The connection that registers the device closes while its token is being built. -/
theorem minted_after_disconnect : ∃ m,
    run (pushStep sampleConfig sampleLfa) (.fresh sampleStored)
      (signInMoves ++ registerMoves ++
        [.outside (.manager (.socketDisconnected (sampleConnection 2) true 0))] ++ builtMoves ++
        signInAgainMoves ++ sendMoves) = some m ∧
      ¬AuthorizedAtMint m.world := by
  refine ⟨_, rfl, fun authorized => ?_⟩
  obtain ⟨teamId, ⟨minted, mem, -, -, n, manager, after, before, isManager, joined⟩, -⟩ :=
    authorized _ (List.mem_singleton_self _)
  cases List.mem_singleton.mp mem
  have isMint : n = _ := le_antisymm before after
  subst isMint
  cases isManager
  obtain ⟨ref, userId, connection, -, -, -, isJoined⟩ := joined
  have closed : Function.update (Function.update (Function.update (Function.update
      (fun _ => AuthStatus.PENDING) (sampleConnection 2) .PENDING) (sampleConnection 2) .JOINING)
      (sampleConnection 2) .JOINED) (sampleConnection 2) .REJECTED_OR_CLOSED connection = .JOINED :=
    isJoined
  simp only [Function.update_idem, Function.update_apply] at closed
  split at closed <;> cases closed

end QuietStorage.Qps
