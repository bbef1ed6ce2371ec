import QuietStorage.Websocket.Gateway

/-!
# Websocket.Handlers — the twelve event handlers of a socket

Each handler as its source has it, for any value as the message and any value in the place of the
callback. `handle` is the handler that a socket is given for each event.

A catch block does not look at what was thrown, beyond the few classes whose message it passes on.
-/

set_option autoImplicit false

namespace QuietStorage.Websocket

open Lib Communities
open Encryption (Environment)
open Sync (AuthStatus SyncError)

/-- `CaptchaErrorMessages.CAPTCHA_VERIFICATION_REQUIRED`. -/
def CAPTCHA_VERIFICATION_REQUIRED : String := "Captcha verification required"

def QPS_MAX_BATCH_UCANS : Nat := 500

def AUTH_SYNC_LARGE_PAYLOAD_BYTES : Nat := 512 * 1024

inductive QpsErrorReason where
  | PushNotificationServiceNotAvailable | RegistrationFailed | InvalidUcanToken
  | DeviceTokenNoLongerValid | PushNotificationFailed | BatchPushFailed | InvalidBatchPayload
  | BatchSizeExceedsLimit | NoValidDeviceTokens | AllPushNotificationsFailed
  | SocketNotSignedIntoTeam | SocketNotSignedIntoUcanTeam | SocketNotSignedIntoAnyUcanTeam
  deriving DecidableEq, Repr

def QpsErrorReason.text : QpsErrorReason → String
  | .PushNotificationServiceNotAvailable => "Push notification service not available"
  | .RegistrationFailed => "Registration failed"
  | .InvalidUcanToken => "Invalid UCAN token"
  | .DeviceTokenNoLongerValid => "Device token no longer valid"
  | .PushNotificationFailed => "Push notification failed"
  | .BatchPushFailed => "Batch push failed"
  | .InvalidBatchPayload => "Invalid batch push payload"
  | .BatchSizeExceedsLimit => "Batch size exceeds limit of 500"
  | .NoValidDeviceTokens => "No valid device tokens"
  | .AllPushNotificationsFailed => "All push notifications failed"
  | .SocketNotSignedIntoTeam => "Socket is not signed into this team"
  | .SocketNotSignedIntoUcanTeam =>
    "Socket is not signed into the team associated with this UCAN"
  | .SocketNotSignedIntoAnyUcanTeam =>
    "Socket is not signed into any team associated with these UCANs"

/-- The message of an `AuthenticationError` or a `CommunityNotFoundError`, and otherwise `reason`. -/
def HandlerError.reasonOr (reason : String) : HandlerError → String
  | .service (.authentication m) => SyncError.message (.authentication m)
  | .service (.communityNotFound id) => SyncError.message (.communityNotFound id)
  | _ => reason

/-- The same, with the message of a `SignatureMismatchError`. -/
def HandlerError.syncReasonOr (reason : String) : HandlerError → String
  | .service (.signatureMismatch u u') => SyncError.message (.signatureMismatch u u')
  | e => e.reasonOr reason

section
variable {Blob : Type} (config : HandlerConfig) (message callback : JsValue)

/-! ## Captcha -/

def handleVerifyCaptcha : GatewayM Blob Unit := do
  try
    let s ← Async.get
    if (s.data config.socketId).verifiedCaptcha then
      respond config .VerifyCaptcha callback .SUCCESS none none
    else
      let payload ← js (message.property "payload")
      let token ← js (payload.property "token")
      let hcaptchaResponse ← Async.send (Command.verifyToken token)
      if hcaptchaResponse.success then
        Async.modify (·.verified config.socketId)
        respond config .VerifyCaptcha callback .SUCCESS none none
      else
        respond config .VerifyCaptcha callback .ERROR
          (hcaptchaResponse.errorCodes.map (", ".intercalate ·)) none
  catch _ =>
    respond config .VerifyCaptcha callback .ERROR (some "Captcha verification failed") none

def handleGetCaptchaSiteKey : GatewayM Blob Unit := do
  try
    let siteKey ← call .getSiteKey
    respond config .GetCaptchaSiteKey callback .SUCCESS none
      (some (.object [("siteKey", .string siteKey)]))
  catch _ =>
    respond config .GetCaptchaSiteKey callback .ERROR (some "Failed to get captcha site key") none

/-! ## Auth -/

def handleGeneratePublicKeys : GatewayM Blob Unit := do
  try
    let payload ← js (message.property "payload")
    if payload.isNullish then
      throw (.service (.error "Payload missing from generate public keys message"))
    else
      let teamId ← js (payload.property "teamId")
      let s ← Async.get
      if (s.data config.socketId).verifiedCaptcha = false then
        respond config .GeneratePublicKeys callback .ERROR (some CAPTCHA_VERIFICATION_REQUIRED) none
      else if (s.data config.socketId).usedCaptchaForKeys then
        respond config .GeneratePublicKeys callback .ERROR (some CAPTCHA_VERIFICATION_REQUIRED) none
      else
        Async.modify (·.pass config .GeneratePublicKeys)
        let keysetWithSecrets ← Async.send (Command.getServerKeys teamId .NOT_STORED)
        Async.modify (·.mark config .GeneratePublicKeys)
        let keys ← call (.redactKeys keysetWithSecrets)
        respond config .GeneratePublicKeys callback .SUCCESS none
          (some (.object [("keys", keys), ("teamId", teamId)]))
  catch _ =>
    respond config .GeneratePublicKeys callback .ERROR
      (some "Error while handling get public keys event") none

/-- This handler takes no callback. Its catch block emits 'localError' on the connection, which is
logged. -/
def handleAuthSync : GatewayM Blob Unit := do
  try
    let payload ← js (message.property "payload")
    let teamId ← js (payload.property "teamId")
    let userId ← js (payload.property "userId")
    let community ← Async.send (Command.get teamId)
    if community.isNone then throw (.service (.error "No community found"))
    else
      let s ← Async.get
      match s.connectionOf community userId with
      | none => pure ()
      | some authConnection =>
        if authConnection.socketId ≠ config.socketId then pure ()
        else
          let text ← js (payload.property "message")
          let decoded ← call (.fromString text)
          if AUTH_SYNC_LARGE_PAYLOAD_BYTES ≤ decoded.length then
            js (do discard userId.text; discard teamId.text)
          let manager ← call (.deliver authConnection decoded)
          Async.modify fun s => { s with manager := manager }
  catch _ => pure ()

/-! ## Communities -/

/-- The payload of a create message: the community, its id, the team keyring and the user. -/
def createPayload : Except TypeError (JsValue × JsValue × JsValue × JsValue) := do
  let payload ← message.property "payload"
  let community ← payload.property "community"
  let teamKeyring ← payload.property "teamKeyring"
  let userId ← payload.property "userId"
  let teamId ← community.property "teamId"
  pure (community, teamId, teamKeyring, userId)

def handleCreateCommunity : GatewayM Blob Unit := do
  try
    let s ← Async.get
    if (s.data config.socketId).verifiedCaptcha = false then
      respond config .CreateCommunity callback .ERROR (some CAPTCHA_VERIFICATION_REQUIRED) none
    else if (s.data config.socketId).usedCaptchaForCreateCommunity then
      respond config .CreateCommunity callback .ERROR (some CAPTCHA_VERIFICATION_REQUIRED) none
    else
      let (community, teamId, teamKeyring, userId) ← js (createPayload message)
      attributeSocket config teamId userId .CreateCommunity
      Async.modify (·.pass config .CreateCommunity)
      Async.send (Command.create userId community teamKeyring config.socketId)
      Async.modify (·.mark config .CreateCommunity)
      Async.send (Command.join config.socketId teamId)
      respond config .CreateCommunity callback .SUCCESS none none
  catch _ =>
    respond config .CreateCommunity callback .ERROR (some "Error while creating community") none

def handleSignInToCommunity : GatewayM Blob Unit := do
  try
    let payload ← js (message.property "payload")
    if payload.isNullish then throw (.service (.error "Payload was nullish!"))
    else
      let teamId ← js (payload.property "teamId")
      let userId ← js (payload.property "userId")
      let community ← Async.send (Command.get teamId)
      let printed ← js teamId.text
      if community.isNone then
        respond config .SignInCommunity callback .NOT_FOUND
          (some ("No community found for " ++ printed)) none
      else
        let manager ← call (.startAuthSyncConnection userId teamId config.socketId)
        Async.modify fun s => { s with manager := manager }
        attributeSocket config teamId userId .SignInCommunity
        respond config .SignInCommunity callback .SUCCESS none none
  catch e =>
    respond config .SignInCommunity callback .ERROR
      (some (e.reasonOr "Error while signing in to community")) none

/-- The environment is looked at before the `try`. -/
def handleGetCommunity : GatewayM Blob Unit := do
  let env ← MonadExcept.ofExcept config.env
  if env ≠ .Local then pure ()
  else
    try
      let payload ← js (message.property "payload")
      let teamId ← js (payload.property "id")
      let managedCommunity ← Async.send (Command.get teamId)
      match managedCommunity with
      | none =>
        respond config .GetCommunity callback .NOT_FOUND (some "No community found in storage") none
      | some managedCommunity =>
        let sigChain ← call (.serialize managedCommunity.sigChain)
        respond config .GetCommunity callback .SUCCESS none
          (some (.object [("sigChain", sigChain), ("teamId", .string managedCommunity.teamId)]))
    catch e =>
      respond config .GetCommunity callback .ERROR
        (some (e.reasonOr "Error while getting community")) none

/-! ## Log entry sync -/

/-- The message for the room: `payload` with the position that its entry was stored at. -/
def fanoutMessage (payload : JsValue) (storedPosition : StoredSyncPosition) : JsValue :=
  let stored := JsValue.setField
    (JsValue.setField payload.spread "receivedAt" (.int storedPosition.receivedAtMs))
    "syncSeq" (.int storedPosition.syncSeq)
  .object (JsValue.setField message.spread "payload" (.object stored))

/-- The catch block reads the payload again. -/
def handleLogEntrySync : GatewayM Blob Unit := do
  try
    let payload ← js (message.property "payload")
    let teamId ← js (payload.property "teamId")
    let stored ← Async.send (Command.processIncomingLogEntrySyncMessage payload config.socketId)
    match stored with
    | none => throw (.service (.error "Failed to write log entry sync message to the DB"))
    | some storedPosition =>
      call (.emit teamId config.socketId .LogEntrySync (fanoutMessage message payload storedPosition))
      let hash ← js (payload.property "hash")
      let hashedDbId ← js (payload.property "hashedDbId")
      respond config .LogEntrySync callback .SUCCESS none
        (some (.object [("hash", hash), ("hashedDbId", hashedDbId),
          ("receivedAt", .int storedPosition.receivedAtMs),
          ("syncSeq", .int storedPosition.syncSeq), ("teamId", teamId)]))
  catch e =>
    let payload ← js (message.property "payload")
    let hash ← js (payload.property "hash")
    let hashedDbId ← js (payload.property "hashedDbId")
    let teamId ← js (payload.property "teamId")
    respond config .LogEntrySync callback .ERROR
      (some (e.syncReasonOr "Error while handling log entry sync message"))
      (some (.object [("hash", hash), ("hashedDbId", hashedDbId), ("teamId", teamId)]))

def handleLogEntryPull : GatewayM Blob Unit := do
  try
    let payload ← js (message.property "payload")
    let result ← Async.send (Command.getPaginatedLogEntries payload config.socketId)
    respond config .LogEntryPull callback .SUCCESS none (some (.object result))
  catch e =>
    respond config .LogEntryPull callback .ERROR
      (some (e.reasonOr "Error while handling log entry pull message"))
      (some (.object [("entries", .array []), ("hasNextPage", .bool false)]))

/-! ## Push notifications -/

def hasJoinedAuthConnection (teamId : JsValue) : GatewayM Blob Bool := do
  let s ← Async.get
  let userId := (s.data config.socketId).userId
  if userId.isNullish then pure false
  else
    let community ← Async.send (Command.get teamId)
    let s ← Async.get
    match s.connectionOf community userId with
    | none => pure false
    | some authConnection =>
      pure (authConnection.socketId = config.socketId &&
        s.manager.status authConnection = .JOINED)

/-- What is thrown is logged, with the team. -/
def isAuthorizedForTeam (teamId : JsValue) : GatewayM Blob Bool := do
  try hasJoinedAuthConnection config teamId
  catch _ =>
    discard (js teamId.text)
    pure false

def handleRegisterDevice : GatewayM Blob Unit := do
  try
    let payload ← js (message.property "payload")
    let deviceToken ← js (payload.property "deviceToken")
    let bundleId ← js (payload.property "bundleId")
    let platform ← js (payload.property "platform")
    let teamId ← js (payload.property "teamId")
    let authorized ← isAuthorizedForTeam config teamId
    if authorized = false then
      respond config .QPSRegisterDevice callback .UNAUTHORIZED
        (some QpsErrorReason.SocketNotSignedIntoTeam.text) none
    else
      let result ← Async.send (Command.registerDevice deviceToken bundleId platform teamId)
      match result.success, result.ucan with
      | true, some ucan =>
        respond config .QPSRegisterDevice callback .SUCCESS none
          (some (.object [("ucan", .string ucan)]))
      | _, _ =>
        respond config .QPSRegisterDevice callback .ERROR
          (some (result.error.getD QpsErrorReason.RegistrationFailed.text)) none
  catch _ =>
    respond config .QPSRegisterDevice callback .ERROR
      (some QpsErrorReason.RegistrationFailed.text) none

/-- `teamId != null && await isAuthorizedForTeam(teamId)`. -/
def isAuthorizedForUcan (teamId : JsValue) : GatewayM Blob Bool :=
  if teamId.isNullish then pure false else isAuthorizedForTeam config teamId

def handleSendPush : GatewayM Blob Unit := do
  try
    let payload ← js (message.property "payload")
    let ucan ← js (payload.property "ucan")
    let ucanInfo ← Async.send (Command.validateUcan ucan)
    if ucanInfo.valid = false then
      respond config .QPSSendPush callback .ERROR
        (some (ucanInfo.error.getD QpsErrorReason.InvalidUcanToken.text)) none
    else
      let authorized ← isAuthorizedForUcan config ucanInfo.teamId
      if authorized = false then
        respond config .QPSSendPush callback .UNAUTHORIZED
          (some QpsErrorReason.SocketNotSignedIntoUcanTeam.text) none
      else
        let title ← js (payload.property "title")
        let body ← js (payload.property "body")
        let data ← js (payload.property "data")
        let result ← Async.send (Command.sendPush ucan title body data)
        if result.success then respond config .QPSSendPush callback .SUCCESS none none
        else if result.tokenInvalid = some true then
          respond config .QPSSendPush callback .NOT_FOUND
            (some (result.error.getD QpsErrorReason.DeviceTokenNoLongerValid.text)) none
        else
          respond config .QPSSendPush callback .ERROR
            (some (result.error.getD QpsErrorReason.PushNotificationFailed.text)) none
  catch _ =>
    respond config .QPSSendPush callback .ERROR
      (some QpsErrorReason.PushNotificationFailed.text) none

/-- The loop over the UCANs of a batch. -/
def authorizedUcans : List JsValue → GatewayM Blob (List JsValue)
  | [] => pure []
  | ucan :: ucans => do
    let ucanInfo ← Async.send (Command.validateUcan ucan)
    let authorized ←
      (if ucanInfo.valid then isAuthorizedForUcan config ucanInfo.teamId else pure false)
    let rest ← authorizedUcans ucans
    pure (if authorized then ucan :: rest else rest)

/-- `{ invalidTokens }`. -/
def invalidTokensPayload (invalidTokens : List JsValue) : Option JsValue :=
  some (.object [("invalidTokens", .array invalidTokens)])

def handleSendBatchPush : GatewayM Blob Unit := do
  try
    let payload ← js (message.property "payload")
    let ucans ← js (payload.property "ucans")
    match ucans.items? with
    | none =>
      respond config .QPSSendBatchPush callback .ERROR
        (some QpsErrorReason.InvalidBatchPayload.text) (invalidTokensPayload [])
    | some ucans =>
      if QPS_MAX_BATCH_UCANS < ucans.length then
        respond config .QPSSendBatchPush callback .ERROR
          (some QpsErrorReason.BatchSizeExceedsLimit.text) (invalidTokensPayload [])
      else
        let authorized ← authorizedUcans config ucans
        if authorized.isEmpty then
          respond config .QPSSendBatchPush callback .UNAUTHORIZED
            (some QpsErrorReason.SocketNotSignedIntoAnyUcanTeam.text) (invalidTokensPayload [])
        else
          let title ← js (payload.property "title")
          let body ← js (payload.property "body")
          let data ← js (payload.property "data")
          let result ← Async.send (Command.sendBatchPush authorized title body data)
          if result.success then
            respond config .QPSSendBatchPush callback .SUCCESS none
              (invalidTokensPayload (result.invalidTokens.getD []))
          else
            respond config .QPSSendBatchPush callback .ERROR
              (some (result.error.getD QpsErrorReason.BatchPushFailed.text))
              (invalidTokensPayload (result.invalidTokens.getD []))
  catch _ =>
    respond config .QPSSendBatchPush callback .ERROR
      (some QpsErrorReason.BatchPushFailed.text) (invalidTokensPayload [])

/-- The handler of an event. -/
def handle (event : WebsocketEvents) : GatewayM Blob Unit :=
  match event with
  | .CreateCommunity => handleCreateCommunity config message callback
  | .GetCommunity => handleGetCommunity config message callback
  | .SignInCommunity => handleSignInToCommunity config message callback
  | .GeneratePublicKeys => handleGeneratePublicKeys config message callback
  | .AuthSync => handleAuthSync config message
  | .LogEntrySync => handleLogEntrySync config message callback
  | .LogEntryPull => handleLogEntryPull config message callback
  | .VerifyCaptcha => handleVerifyCaptcha config message callback
  | .GetCaptchaSiteKey => handleGetCaptchaSiteKey config callback
  | .QPSRegisterDevice => handleRegisterDevice config message callback
  | .QPSSendPush => handleSendPush config message callback
  | .QPSSendBatchPush => handleSendBatchPush config message callback

end

end QuietStorage.Websocket
