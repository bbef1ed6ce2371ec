import QuietStorage.Lib.Interpret
import QuietStorage.Lib.Timeline
import QuietStorage.Websocket.Handlers

/-!
# Qps.Service — device registration and push delivery

`UcanService`, `PushService` and `QPSService` as programs, and the three handlers of the push events
with these programs in the place of the services they await: one machine with the sign-ins, the LFA
events and the disconnects of `Communities.Manager`.

**UCANs.** `Ucans` stands for the library. A token that it builds reads as what was built
(`Ucans.RoundTrips`), and `validate` accepts a token that names QPS as its issuer only if QPS has
built it (`PushWorld.genuine`); of tokens that name another issuer nothing is assumed. What a token
says is kept as the client sent it, since QPS does not look at it.

**The record.** The manager's states are numbered as they pass. Each token is recorded with the
request that it was built for, and each device token that is handed to FCM with the request that
handed it; a request is its socket and the number of the state it began in. No program reads the
record, apart from the number of the state.

Left out: how the signing key and the two FCM clients are set up at the start (the config says
whether they are), and the parts of an FCM message that are the same in all of them.
-/

set_option autoImplicit false

namespace QuietStorage.Qps

open Lib Communities Websocket

/-! ## UCANs -/

structure UcanResourcePointer where
  scheme : String
  hierPart : JsValue

structure UcanAbility where
  /-- The field `namespace`. -/
  space : String
  segments : List String

/-- `QpsPushCapability`: the fields `with` and `can`. -/
structure QpsPushCapability where
  resource : UcanResourcePointer
  ability : UcanAbility

structure UcanFacts where
  bundleId : JsValue
  platform : JsValue
  teamId : JsValue

structure UcanPayload where
  iss : String
  aud : String
  exp : Int
  att : List QpsPushCapability
  fct : Option (List UcanFacts)

/-- `@ucans/ucans`. `build` is the token that `build` and `encode` make; the number stands for what
the library chooses itself. -/
structure Ucans where
  build : UcanPayload → Nat → String
  parse : JsValue → Except HandlerError UcanPayload

/-- A token that was built reads as nothing but what it was built of. -/
def Ucans.RoundTrips (ucans : Ucans) : Prop :=
  ∀ payload n parsed, ucans.parse (.string (ucans.build payload n)) = .ok parsed → parsed = payload

/-- 9999-12-31T23:59:59Z, in seconds. -/
def FAR_FUTURE_EXPIRATION : Int := 253402300799

/-- What the services are set up with. `qpsDid` is set together with the signing key. -/
structure QpsConfig where
  ucans : Ucans
  qpsDid : Option String
  iosAvailable : Bool
  androidAvailable : Bool
  /-- The message of an error of the language. -/
  typeErrorText : String

/-- `error.message`. -/
def QpsConfig.messageOf (config : QpsConfig) : HandlerError → String
  | .typeError => config.typeErrorText
  | .service e => e.message

/-- What QPS builds for a device. -/
def qpsPayload (qpsDid : String) (deviceToken bundleId platform teamId : JsValue) : UcanPayload where
  iss := qpsDid
  aud := qpsDid
  exp := FAR_FUTURE_EXPIRATION
  att :=
    [{ resource := { scheme := "fcm", hierPart := deviceToken }
       ability := { space := "push", segments := ["send"] } }]
  fct := some [{ bundleId := bundleId, platform := platform, teamId := teamId }]

/-- What a token that was accepted says, by the checks of `validateUcan` on what it was parsed to. -/
def checkPayload (qpsDid : String) (parsed : UcanPayload) : UcanValidationResult :=
  if parsed.iss ≠ qpsDid then { valid := false, error := some "UCAN must be issued by QPS" }
  else if parsed.aud ≠ qpsDid then { valid := false, error := some "UCAN audience must be QPS" }
  else
    match parsed.att with
    | [cap] =>
      if cap.ability.space ≠ "push" then
        { valid := false, error := some "UCAN capability must be in push namespace" }
      else if cap.ability.segments ≠ ["send"] then
        { valid := false, error := some "UCAN capability must be push/send" }
      else if cap.resource.scheme ≠ "fcm" then
        { valid := false, error := some "UCAN resource must use fcm:// scheme" }
      else
        let facts := parsed.fct.bind List.head?
        { valid := true
          deviceToken := cap.resource.hierPart
          bundleId := (facts.map UcanFacts.bundleId).getD .undefined
          platform := (facts.map UcanFacts.platform).getD .undefined
          teamId := (facts.map UcanFacts.teamId).getD .undefined }
    | _ => { valid := false, error := some "UCAN must contain exactly one capability" }

/-- What QPS has built passes its own checks, and says what was asked for. -/
theorem checkPayload_qpsPayload (qpsDid : String)
    (deviceToken bundleId platform teamId : JsValue) :
    checkPayload qpsDid (qpsPayload qpsDid deviceToken bundleId platform teamId) =
      { valid := true, deviceToken := deviceToken, bundleId := bundleId, platform := platform,
        teamId := teamId } := by
  simp [checkPayload, qpsPayload]

/-- Only a token in the name of QPS passes. -/
theorem iss_of_checkPayload {qpsDid : String} {parsed : UcanPayload}
    (valid : (checkPayload qpsDid parsed).valid = true) : parsed.iss = qpsDid := by
  by_contra another
  rw [checkPayload, if_pos another] at valid
  cases valid

/-! ## FCM -/

structure PushPayload where
  title : JsValue := .undefined
  body : JsValue := .undefined
  data : JsValue := .undefined

inductive PushErrorCode where
  | INVALID_TOKEN | SERVICE_UNAVAILABLE | UNKNOWN_ERROR
  | FCM_INVALID_REGISTRATION | FCM_NOT_REGISTERED | FCM_SENDER_ID_MISMATCH
  deriving DecidableEq, Repr

structure PushResult where
  success : Bool
  error : Option String := none
  errorCode : Option PushErrorCode := none

structure MulticastPushResult where
  successCount : Nat
  failureCount : Nat
  invalidTokens : List JsValue

/-- An error of `firebase-admin`. -/
structure FcmError where
  code : Option String
  message : String

/-- What `sendEachForMulticast` returns: for each token, the code of its error if it has failed. -/
structure BatchResponse where
  successCount : Nat
  failureCount : Nat
  responses : List (Option (Option String))

/-! ## The world -/

/-- A request under way: its socket, and the number of the manager's state it began in. -/
structure PushRequest where
  socketId : SocketId
  since : Nat
  deriving DecidableEq, Repr

/-- A token that was built, for what and in which state of the manager. -/
structure Minted where
  token : String
  payload : UcanPayload
  request : PushRequest
  time : Nat

/-- A device token that was handed to FCM. -/
structure Handed where
  deviceToken : JsValue
  request : PushRequest
  time : Nat

structure PushWorld (Blob : Type) where
  gateway : Gateway Blob
  /-- The states that the manager was in before, the oldest first. -/
  past : List (State Blob)
  minted : List Minted
  handed : List Handed

inductive PushCommand where
  /-- `communitiesManager.get`. -/
  | get (teamId : JsValue)
  /-- `ucans.build`, for a request. -/
  | build (request : PushRequest) (payload : UcanPayload)
  /-- `ucans.validate`. -/
  | validate (token : JsValue)
  /-- `messaging.send`. -/
  | send (deviceToken : String) (payload : PushPayload) (platform : JsValue)
  | sendEachForMulticast (deviceTokens : List JsValue) (payload : PushPayload) (platform : JsValue)

abbrev PushCommand.Answer : PushCommand → Type
  | .get _ => Option ManagedCommunity
  | .build _ _ => String
  | .validate _ => Unit
  | .send _ _ _ => Except FcmError Unit
  | .sendEachForMulticast _ _ _ => Except FcmError BatchResponse

abbrev PushM (Blob : Type) := Async (PushWorld Blob) PushCommand PushCommand.Answer HandlerError

namespace PushWorld

variable {Blob : Type}

/-- The states of the manager up to now. -/
def timeline (w : PushWorld Blob) : Timeline (State Blob) := ⟨w.past, w.gateway.manager⟩

/-- The number of the manager's state. -/
def now (w : PushWorld Blob) : Nat := w.timeline.now

/-- The manager moves to its next state. -/
def moveManager (w : PushWorld Blob) (manager : State Blob) : PushWorld Blob :=
  { w with
    gateway := { w.gateway with manager := manager }
    past := w.timeline.states }

def setGateway (w : PushWorld Blob) (gateway : Gateway Blob) : PushWorld Blob :=
  { w with gateway := gateway }

/-- `ucans.validate` may accept the token: if it names QPS as its issuer, QPS has built it. -/
def genuine (config : QpsConfig) (w : PushWorld Blob) (token : JsValue) : Bool :=
  match config.ucans.parse token with
  | .error _ => true
  | .ok parsed =>
    if some parsed.iss = config.qpsDid then
      match token with
      | .string token => w.minted.any fun minted => minted.token = token
      | _ => false
    else true

/-- Device tokens are handed to FCM. -/
def handOver (w : PushWorld Blob) (request : PushRequest) (deviceTokens : List JsValue) :
    PushWorld Blob :=
  { w with
    handed := w.handed ++ deviceTokens.map fun deviceToken =>
      { deviceToken := deviceToken, request := request, time := w.now } }

end PushWorld

section
variable {Blob : Type} (config : QpsConfig) (request : PushRequest)

/-! ## UcanService -/

def createUcan (deviceToken bundleId platform teamId : JsValue) : PushM Blob String :=
  match config.qpsDid with
  | none => throw (.service (.error "QPS signing key not initialized"))
  | some qpsDid =>
    Async.send (PushCommand.build request (qpsPayload qpsDid deviceToken bundleId platform teamId))

/-- `await ucans.validate(token)`, and whether it threw. -/
def validates (token : JsValue) : PushM Blob Bool := do
  try
    Async.send (PushCommand.validate token)
    pure true
  catch _ => pure false

def validateUcan (token : JsValue) : PushM Blob UcanValidationResult :=
  match config.qpsDid with
  | none => pure { valid := false, error := some "QPS signing key not initialized" }
  | some qpsDid => do
    try
      let parsed ← MonadExcept.ofExcept (config.ucans.parse token)
      let accepted ← validates token
      pure (if accepted then checkPayload qpsDid parsed
        else { valid := false, error := some "Invalid UCAN signature or structure" })
    catch e => pure { valid := false, error := some (config.messageOf e) }

/-! ## PushService -/

/-- `isAvailable`. A platform that is available has its messaging client. -/
def isAvailable (platform : JsValue) : Bool :=
  if platform.strictEquals (.string "android") then config.androidAvailable
  else config.iosAvailable

def handleFcmError (error : FcmError) : PushResult :=
  if error.code = some "messaging/invalid-registration-token" ∨
      error.code = some "messaging/registration-token-not-registered" then
    { success := false
      error := some "Device token is invalid or no longer registered"
      errorCode := some
        (if error.code = some "messaging/invalid-registration-token" then .FCM_INVALID_REGISTRATION
          else .FCM_NOT_REGISTERED) }
  else if error.code = some "messaging/mismatched-credential" then
    { success := false
      error := some "FCM credentials do not match the device token"
      errorCode := some .FCM_SENDER_ID_MISMATCH }
  else { success := false, error := some error.message, errorCode := some .UNKNOWN_ERROR }

/-- `sendFcm`. A device token that is no string has no `substring` for the log line, and none for the
log line of that error. -/
def sendFcm (deviceToken : JsValue) (payload : PushPayload) (platform : JsValue) :
    PushM Blob PushResult :=
  match deviceToken with
  | .string token => do
    Async.modify (·.handOver request [.string token])
    let answer ← Async.send (PushCommand.send token payload platform)
    match answer with
    | .ok () => pure { success := true }
    | .error e => pure (handleFcmError e)
  | _ => throw .typeError

/-- `PushService.send`. -/
def sendNotification (deviceToken : JsValue) (payload : PushPayload) (platform : JsValue) :
    PushM Blob PushResult :=
  if isAvailable config platform then sendFcm request deviceToken payload platform
  else
    pure
      { success := false
        error := some QpsErrorReason.PushNotificationServiceNotAvailable.text
        errorCode := some .SERVICE_UNAVAILABLE }

/-- `sendMulticast` up to its await: whether there is anything to await. -/
def startMulticast (deviceTokens : List JsValue) (platform : JsValue) : PushM Blob Bool :=
  if isAvailable config platform && !deviceTokens.isEmpty then do
    Async.modify (·.handOver request deviceTokens)
    pure true
  else pure false

/-- The tokens that FCM does not know (any more). -/
def invalidTokens (deviceTokens : List JsValue) (responses : List (Option (Option String))) :
    List JsValue :=
  (deviceTokens.zip responses).filterMap fun entry =>
    match entry.2 with
    | some (some "messaging/invalid-registration-token") => some entry.1
    | some (some "messaging/registration-token-not-registered") => some entry.1
    | _ => none

/-- `sendMulticast` from its await on. -/
def finishMulticast (deviceTokens : List JsValue) (payload : PushPayload) (platform : JsValue)
    (started : Bool) : PushM Blob MulticastPushResult :=
  if started then do
    let answer ← Async.send (PushCommand.sendEachForMulticast deviceTokens payload platform)
    match answer with
    | .ok response =>
      pure
        { successCount := response.successCount
          failureCount := response.failureCount
          invalidTokens := invalidTokens deviceTokens response.responses }
    | .error _ =>
      pure { successCount := 0, failureCount := deviceTokens.length, invalidTokens := [] }
  else pure { successCount := 0, failureCount := deviceTokens.length, invalidTokens := [] }

/-! ## QPSService -/

def registerDevice (deviceToken bundleId platform teamId : JsValue) :
    PushM Blob RegistrationResult := do
  try
    if isAvailable config platform then
      let ucan ← createUcan config request deviceToken bundleId platform teamId
      pure { success := true, ucan := some ucan }
    else
      pure
        { success := false
          error := some QpsErrorReason.PushNotificationServiceNotAvailable.text }
  catch e => pure { success := false, error := some (config.messageOf e) }

/-- `value ?? other`. -/
def orElse (value other : JsValue) : JsValue := if value.isNullish then other else value

def makePayload (platform title body data : JsValue) : PushPayload :=
  if platform.strictEquals (.string "android") then { data := data }
  else
    { title := orElse title (.string "Quiet")
      body := orElse body (.string "You have new activity")
      data := data }

def isTokenInvalidError (errorCode : Option PushErrorCode) : Bool :=
  errorCode = some .INVALID_TOKEN || errorCode = some .FCM_INVALID_REGISTRATION ||
    errorCode = some .FCM_NOT_REGISTERED

def sendPush (ucanToken title body data : JsValue) : PushM Blob SendPushResult := do
  let validation ← validateUcan config ucanToken
  if validation.valid = false || validation.deviceToken.isNullish then
    pure
      { success := false
        error := some (validation.error.getD QpsErrorReason.InvalidUcanToken.text) }
  else
    let platform := orElse validation.platform (.string "ios")
    let result ← sendNotification config request validation.deviceToken
      (makePayload platform title body data) platform
    if result.success then pure { success := true }
    else
      pure
        { success := false
          error := result.error
          tokenInvalid := some (isTokenInvalidError result.errorCode) }

/-- The loop of `sendBatchPush`: the device tokens for iOS and for Android. -/
def bucketTokens : List JsValue → PushM Blob (List JsValue × List JsValue)
  | [] => pure ([], [])
  | ucan :: ucans => do
    let validation ← validateUcan config ucan
    let (iosTokens, androidTokens) ← bucketTokens ucans
    if validation.valid && !validation.deviceToken.isNullish then
      if validation.platform.strictEquals (.string "android") then
        pure (iosTokens, validation.deviceToken :: androidTokens)
      else pure (validation.deviceToken :: iosTokens, androidTokens)
    else pure (iosTokens, androidTokens)

/-- Both platforms are handed their tokens before either is awaited. -/
def sendBatchPush (ucans : List JsValue) (title body data : JsValue) :
    PushM Blob SendBatchPushResult :=
  if ucans.isEmpty then pure { success := true }
  else if QPS_MAX_BATCH_UCANS < ucans.length then
    pure { success := false, error := some QpsErrorReason.BatchSizeExceedsLimit.text }
  else do
    let (iosTokens, androidTokens) ← bucketTokens config ucans
    if iosTokens.length + androidTokens.length = 0 then
      pure { success := false, error := some QpsErrorReason.NoValidDeviceTokens.text }
    else
      let iosStarted ← startMulticast config request iosTokens (.string "ios")
      let androidStarted ← startMulticast config request androidTokens (.string "android")
      let ios ← finishMulticast iosTokens (makePayload (.string "ios") title body data)
        (.string "ios") iosStarted
      let android ← finishMulticast androidTokens (makePayload (.string "android") title body data)
        (.string "android") androidStarted
      if ios.successCount + android.successCount = 0 then
        pure
          { success := false
            error := some QpsErrorReason.AllPushNotificationsFailed.text
            invalidTokens := some (ios.invalidTokens ++ android.invalidTokens) }
      else
        pure { success := true, invalidTokens := some (ios.invalidTokens ++ android.invalidTokens) }

/-- The services that the push handlers await. They await no other. -/
def serve : (c : Command) → PushM Blob c.Answer
  | .get teamId => Async.send (PushCommand.get teamId)
  | .registerDevice deviceToken bundleId platform teamId =>
    registerDevice config request deviceToken bundleId platform teamId
  | .validateUcan ucan => validateUcan config ucan
  | .sendPush ucan title body data => sendPush config request ucan title body data
  | .sendBatchPush ucans title body data => sendBatchPush config request ucans title body data
  | _ => throw .typeError

end

/-! ## The machine -/

inductive QpsEvent where
  | RegisterDevice | SendPush | SendBatchPush
  deriving DecidableEq, Repr

structure QpsMessage where
  event : QpsEvent
  socketId : SocketId
  message : JsValue
  callback : JsValue

def QpsMessage.handler {Blob : Type} (call : QpsMessage) (t : RequestId) : GatewayM Blob Unit :=
  let config : HandlerConfig := ⟨call.socketId, t, .ok .Production⟩
  match call.event with
  | .RegisterDevice => handleRegisterDevice config call.message call.callback
  | .SendPush => handleSendPush config call.message call.callback
  | .SendBatchPush => handleSendBatchPush config call.message call.callback

/-- How a command is answered. -/
inductive PushChoice where
  /-- The call of `get` that is this task of the manager has returned. -/
  | returned (k : TaskId)
  /-- `get` of a team that there is none of. -/
  | missing
  | built (n : Nat)
  | accepts
  | sent (answer : Except FcmError Unit)
  | multicast (answer : Except FcmError BatchResponse)
  | fails (e : HandlerError)

/-- What else happens: an action of the manager, and a new attribution of a socket. -/
inductive PushEvent (Blob : Type) where
  | manager (action : Action Blob)
  | attributed (socketId : SocketId) (teamId userId : JsValue) (source : WebsocketEvents)

section
variable {Blob : Type} (config : QpsConfig)

/-- A message is handled, with the services in their place. -/
def QpsMessage.program (t : RequestId) (call : QpsMessage) : PushM Blob Unit := do
  let w ← Async.get
  (call.handler t).interpret PushWorld.gateway PushWorld.setGateway
    (serve config ⟨call.socketId, w.now⟩)

def performPush (w : PushWorld Blob) :
    (c : PushCommand) → PushChoice → Option (PushWorld Blob × Except HandlerError c.Answer)
  | .get teamId, .returned k =>
    match teamId, w.gateway.manager.tasks k with
    | .string teamId, .resolved (.reader teamId') managedCommunity =>
      if teamId = teamId' then
        some (w.moveManager (w.gateway.manager.setTask k .idle), .ok managedCommunity)
      else none
    | _, _ => none
  | .get _, .missing => some (w, .ok none)
  | .build request payload, .built n =>
    let token := config.ucans.build payload n
    some ({ w with minted := w.minted ++
      [{ token := token, payload := payload, request := request, time := w.now }] }, .ok token)
  | .validate token, .accepts => if w.genuine config token then some (w, .ok ()) else none
  | .send _ _ _, .sent answer => some (w, .ok answer)
  | .sendEachForMulticast _ _ _, .multicast answer => some (w, .ok answer)
  | .get _, .fails e => some (w, .error e)
  | .build _ _, .fails e => some (w, .error e)
  | .validate _, .fails e => some (w, .error e)
  | _, _ => none

variable (lfa : Lfa Blob)

/-- The run is that of one process. -/
def pushOutside (w : PushWorld Blob) : PushEvent Blob → Option (PushWorld Blob)
  | .manager .restart => none
  | .manager action => (step lfa w.gateway.manager action).map w.moveManager
  | .attributed socketId teamId userId source =>
    some (w.setGateway (w.gateway.setData socketId
      (setSocketAttribution (w.gateway.data socketId) teamId userId source).1))

abbrev PushMove (Blob : Type) := Move QpsMessage PushChoice (PushEvent Blob)

abbrev PushState (Blob : Type) :=
  AsyncState (PushWorld Blob) PushCommand PushCommand.Answer HandlerError

def pushStep (m : PushState Blob) (move : PushMove Blob) : Option (PushState Blob) :=
  asyncStep (QpsMessage.program config) (performPush config) (pushOutside lfa) m move

/-- A fresh process over the stored communities. -/
def PushState.fresh (stored : TeamId → Option Blob) : PushState Blob :=
  .start
    { gateway := { (default : Gateway Blob) with manager := .start stored }
      past := []
      minted := []
      handed := [] }

end

end QuietStorage.Qps
