import QuietStorage.Communities.Manager
import QuietStorage.Communities.ServerKeys
import QuietStorage.Lib.Async
import QuietStorage.Lib.JsValue

/-!
# Websocket.Gateway — what the event handlers of the sockets share

The data of every socket, the responses that were given, and the services as the handlers see them. A
message is any value a client can send, and so is what is read out of it; the callback is whatever
stands after the message, and it can be called only if it is a function.

**Services.** A service that is awaited is a `Command` of the program: it is answered, or it throws,
after anything else has run. A service that returns at once is a `ServiceCall`, answered by `calls` in
the state, which is arbitrary and may change between two steps. What a service does inside is not
here; the managed communities are, since two handlers read the auth connections themselves.

Left out: the logger. What a log line is made of is kept where making it may throw.
-/

set_option autoImplicit false

namespace QuietStorage.Websocket

open Lib Communities
open Encryption (Environment)
open Sync (AuthStatus SyncError)

inductive WebsocketEvents where
  | CreateCommunity | GetCommunity | SignInCommunity
  | GeneratePublicKeys | AuthSync
  | LogEntrySync | LogEntryPull
  | VerifyCaptcha | GetCaptchaSiteKey
  | QPSRegisterDevice | QPSSendPush | QPSSendBatchPush
  deriving DecidableEq, Repr

/-- What is thrown: an error of the language, or one of a service. -/
inductive HandlerError where
  | typeError
  | service (e : SyncError)
  deriving DecidableEq, Repr

instance : Inhabited HandlerError := ⟨.typeError⟩

/-! ## The data of a socket -/

/-- `QuietSocketData`. A flag that is not set is `false`, since the handlers only compare it with
`true`; the other values are kept as the client sent them. -/
structure SocketData where
  verifiedCaptcha : Bool := false
  usedCaptchaForKeys : Bool := false
  usedCaptchaForCreateCommunity : Bool := false
  teamId : JsValue := .undefined
  userId : JsValue := .undefined
  attributionSource : Option WebsocketEvents := none

/-- `setSocketAttribution`, with whether anything changed. -/
def setSocketAttribution (data : SocketData) (teamId userId : JsValue) (source : WebsocketEvents) :
    SocketData × Bool :=
  let teamChanged := !teamId.isNullish && !teamId.strictEquals data.teamId
  let userChanged := !userId.isNullish && !userId.strictEquals data.userId
  let attributionChanged := teamChanged || userChanged
  let attributed :=
    { data with
      teamId := if teamChanged then teamId else data.teamId
      userId := if userChanged then userId else data.userId }
  if attributionChanged || data.attributionSource.isNone then
    ({ attributed with attributionSource := some source },
      attributionChanged || data.attributionSource != some source)
  else (attributed, false)

/-- `formatLogValue` as far as it may throw: only a string has a `replace` to call. -/
def formatLogValue (value : JsValue) : Except TypeError Unit :=
  if value.isNullish then .ok ()
  else do
    let length ← value.property "length"
    if length.strictEquals (.number "0") then .ok ()
    else
      match value with
      | .string _ => .ok ()
      | _ => .error .typeError

/-- `formatSocketAttribution`; the id of the socket and the source are strings. -/
def formatSocketAttribution (data : SocketData) : Except TypeError Unit := do
  formatLogValue data.teamId
  formatLogValue data.userId

/-! ## The services -/

structure HCaptchaSiteVerifyResponse where
  success : Bool
  errorCodes : Option (List String) := none

structure RegistrationResult where
  success : Bool
  ucan : Option String := none
  error : Option String := none

/-- What a UCAN says, if it is valid; the values are those it was built with. -/
structure UcanValidationResult where
  valid : Bool
  error : Option String := none
  deviceToken : JsValue := .undefined
  bundleId : JsValue := .undefined
  platform : JsValue := .undefined
  teamId : JsValue := .undefined

structure SendPushResult where
  success : Bool
  error : Option String := none
  tokenInvalid : Option Bool := none

structure SendBatchPushResult where
  success : Bool
  error : Option String := none
  invalidTokens : Option (List JsValue) := none

/-- The services that a handler awaits. -/
inductive Command where
  | verifyToken (token : JsValue)
  | getServerKeys (teamId : JsValue) (allowedKeyState : AllowedServerKeyState)
  | create (userId community teamKeyring : JsValue) (socketId : SocketId)
  | join (socketId : SocketId) (room : JsValue)
  | get (teamId : JsValue)
  | processIncomingLogEntrySyncMessage (payload : JsValue) (socketId : SocketId)
  | getPaginatedLogEntries (payload : JsValue) (socketId : SocketId)
  | registerDevice (deviceToken bundleId platform teamId : JsValue)
  | validateUcan (ucan : JsValue)
  | sendPush (ucan title body data : JsValue)
  | sendBatchPush (ucans : List JsValue) (title body data : JsValue)

/-- What they return. A keyset and a page of log entries are passed on as they are, the page by its
fields. -/
abbrev Command.Answer : Command → Type
  | .verifyToken _ => HCaptchaSiteVerifyResponse
  | .getServerKeys _ _ => JsValue
  | .create _ _ _ _ => Unit
  | .join _ _ => Unit
  | .get _ => Option ManagedCommunity
  | .processIncomingLogEntrySyncMessage _ _ => Option StoredSyncPosition
  | .getPaginatedLogEntries _ _ => List (String × JsValue)
  | .registerDevice _ _ _ _ => RegistrationResult
  | .validateUcan _ => UcanValidationResult
  | .sendPush _ _ _ _ => SendPushResult
  | .sendBatchPush _ _ _ _ => SendBatchPushResult

/-- The services that return at once. -/
inductive ServiceCall where
  | getSiteKey
  | startAuthSyncConnection (userId teamId : JsValue) (socketId : SocketId)
  | redactKeys (keys : JsValue)
  /-- `sigChain.serialize(true)`. -/
  | serialize (sigChain : SigChain)
  /-- `uint8arrays.fromString(text, 'base64')`. -/
  | fromString (text : JsValue)
  /-- `lfaConnection.deliver(message)`. -/
  | deliver (connection : AuthConnection) (message : Bytes)
  /-- `socketServer.to(room).except(socketId).emit(event, message)`. -/
  | emit (room : JsValue) (socketId : SocketId) (event : WebsocketEvents) (message : JsValue)

section
variable (Blob : Type)

/-- What they return; two of them leave the manager in another state. -/
abbrev ServiceCall.Answer : ServiceCall → Type
  | .getSiteKey => String
  | .startAuthSyncConnection _ _ _ => State Blob
  | .redactKeys _ => JsValue
  | .serialize _ => JsValue
  | .fromString _ => Bytes
  | .deliver _ _ => State Blob
  | .emit _ _ _ _ => Unit

end

/-! ## The state -/

/-- `BaseWebsocketMessage`, as a handler gives it to its callback. `CreateCommunityStatus` has two of
the statuses. -/
structure Response where
  ts : Int
  status : CommunityOperationStatus
  reason : Option String := none
  payload : Option JsValue := none

/-- A response, with the message that it answers. -/
structure Answered where
  socketId : SocketId
  event : WebsocketEvents
  response : Response

/-- What a verified captcha pays for. -/
inductive PaidAction where
  | GeneratePublicKeys | CreateCommunity
  deriving DecidableEq, Repr

abbrev RequestId := Nat

/-- What the results on the captcha are about. No handler reads it. -/
structure Payments where
  /-- The hCaptcha verifications that succeeded on each socket. -/
  verifications : SocketId → Nat
  /-- The requests that passed the checks of the captcha and have not marked it as used. -/
  passed : RequestId → Option (SocketId × PaidAction)
  /-- The requests that have marked it as used and have not been answered. -/
  marked : List (RequestId × SocketId × PaidAction)

structure Gateway (Blob : Type) where
  data : SocketId → SocketData
  manager : State Blob
  /-- What the clock reads. -/
  now : Int
  calls : (c : ServiceCall) → Except HandlerError (c.Answer Blob)
  /-- The latest first. -/
  answers : List Answered
  payments : Payments

/-- A handler up to its next await. -/
abbrev GatewayM (Blob : Type) := Async (Gateway Blob) Command Command.Answer HandlerError

/-- What a handler is registered with, and the number of the request that it handles. `env` is what
`ConfigService.getEnv` returns, or throws, in this process. -/
structure HandlerConfig where
  socketId : SocketId
  request : RequestId
  env : Except HandlerError Environment

namespace Gateway

variable {Blob : Type}

instance : Inhabited (Gateway Blob) where
  default :=
    { data := fun _ => {}
      manager := .start fun _ => none
      now := 0
      calls := fun _ => .error .typeError
      answers := []
      payments := ⟨fun _ => 0, fun _ => none, []⟩ }

def setData (s : Gateway Blob) (socketId : SocketId) (data : SocketData) : Gateway Blob :=
  { s with data := Function.update s.data socketId data }

/-- hCaptcha has verified a token for the socket. -/
def verified (s : Gateway Blob) (socketId : SocketId) : Gateway Blob :=
  let s := s.setData socketId
    { s.data socketId with
      verifiedCaptcha := true
      usedCaptchaForKeys := false
      usedCaptchaForCreateCommunity := false }
  { s with payments := { s.payments with
      verifications := Function.update s.payments.verifications socketId
        (s.payments.verifications socketId + 1) } }

/-- The request has passed the checks. -/
def pass (s : Gateway Blob) (config : HandlerConfig) (action : PaidAction) : Gateway Blob :=
  { s with payments := { s.payments with
      passed := Function.update s.payments.passed config.request (some (config.socketId, action)) } }

/-- The request marks the captcha as used. -/
def mark (s : Gateway Blob) (config : HandlerConfig) (action : PaidAction) : Gateway Blob :=
  let data := s.data config.socketId
  let s := s.setData config.socketId
    (match action with
      | .GeneratePublicKeys => { data with usedCaptchaForKeys := true }
      | .CreateCommunity => { data with usedCaptchaForCreateCommunity := true })
  { s with payments := { s.payments with
      passed := Function.update s.payments.passed config.request none
      marked := (config.request, config.socketId, action) :: s.payments.marked } }

/-- The request comes to its response. -/
def settle (s : Gateway Blob) (request : RequestId) : Gateway Blob :=
  { s with payments := { s.payments with
      passed := Function.update s.payments.passed request none
      marked := s.payments.marked.filter fun entry => entry.1 ≠ request } }

def answer (s : Gateway Blob) (answered : Answered) : Gateway Blob :=
  { s with answers := answered :: s.answers }

/-- `community?.authConnections?.get(userId)`. The keys of the map are strings. -/
def connectionOf (s : Gateway Blob) (community : Option ManagedCommunity) (userId : JsValue) :
    Option AuthConnection :=
  match userId with
  | .string userId => community.bind fun community => s.manager.connectionOf community userId
  | _ => none

end Gateway

section
variable {Blob : Type}

/-- An operation of the language. -/
def js {α : Type} (result : Except TypeError α) : GatewayM Blob α :=
  MonadExcept.ofExcept (result.mapError fun _ => .typeError)

/-- A service that returns at once. -/
def call (c : ServiceCall) : GatewayM Blob (c.Answer Blob) := do
  let s ← Async.get
  MonadExcept.ofExcept (s.calls c)

/-- The handler makes a response and calls `callback` with it, which answers the message. -/
def respond (config : HandlerConfig) (event : WebsocketEvents) (callback : JsValue)
    (status : CommunityOperationStatus) (reason : Option String) (payload : Option JsValue) :
    GatewayM Blob Unit := do
  Async.modify (·.settle config.request)
  let s ← Async.get
  if callback.isFunction then
    Async.modify (·.answer
      { socketId := config.socketId
        event := event
        response := { ts := s.now, status := status, reason := reason, payload := payload } })
  else throw .typeError

/-- `setSocketAttribution` of a handler, with the log line of a change. -/
def attributeSocket (config : HandlerConfig) (teamId userId : JsValue) (source : WebsocketEvents) :
    GatewayM Blob Unit := do
  let s ← Async.get
  let attributed := setSocketAttribution (s.data config.socketId) teamId userId source
  Async.modify (·.setData config.socketId attributed.1)
  if attributed.2 then js (formatSocketAttribution attributed.1) else pure ()

end

end QuietStorage.Websocket
