import QuietStorage.Types

/-!
# Sync.Permission — who may write to and read from a community's log

`_validateSyncPermission` and `_validateIncomingSyncMessage`, with the errors they throw. The
managed community is given by what the checks read of it: the auth connection registered for a user,
which is its socket and its status.
-/

set_option autoImplicit false

namespace QuietStorage.Sync

inductive AuthStatus where
  | PENDING | JOINING | JOINED | REJECTED_OR_CLOSED
  deriving DecidableEq, Repr

/-- What the checks read of an auth connection. -/
structure Session where
  socketId : SocketId
  status : AuthStatus
  deriving DecidableEq, Repr

/-- The errors of `utils/errors.ts` that the sync path throws, and the generic one. -/
inductive SyncError where
  | communityNotFound (communityId : TeamId)
  | authentication (internalMessage : String)
  | signatureMismatch (entryUserId signatureUserId : String)
  | error (message : String)
  deriving DecidableEq, Repr

/-- `error.message`. -/
def SyncError.message : SyncError → String
  | .communityNotFound communityId =>
    "No community found for this community ID: " ++ communityId
  | .authentication _ =>
    "User does not have permissions on this community or has not signed in"
  | .signatureMismatch _ _ => "User ID on entry doesn't match signature"
  | .error message => message

/-- `_validateSyncPermission`. -/
def validateSyncPermission (userId : UserId) (teamId : TeamId)
    (managedCommunity : Option (UserId → Option Session)) (socketId : SocketId) :
    Except SyncError Unit :=
  match managedCommunity with
  | none => .error (.communityNotFound teamId)
  | some authConnections =>
    match authConnections userId with
    | none => .error (.authentication "User hasn't signed in to this community")
    | some authConnection =>
      if authConnection.socketId ≠ socketId then
        .error (.authentication
          "Socket ID associated with userId does not match authenticated connection")
      else
        match authConnection.status with
        | .PENDING | .JOINING => .error (.authentication "User authentication pending")
        | .REJECTED_OR_CLOSED => .error (.authentication "User not authenticated")
        | .JOINED => .ok ()

/-- `_validateIncomingSyncMessage`. -/
def validateIncomingSyncMessage (payload : LogEntrySyncPayload) : Except SyncError Unit :=
  if payload.encEntry.userId ≠ payload.encEntry.signature.author.name then
    .error (.signatureMismatch payload.encEntry.userId payload.encEntry.signature.author.name)
  else
    .ok ()

/-- The checks of `processIncomingLogEntrySyncMessage`. -/
def checkMessage (payload : LogEntrySyncPayload) (socketId : SocketId)
    (community : Option (UserId → Option Session)) : Except SyncError Unit := do
  validateSyncPermission payload.encEntry.userId payload.teamId community socketId
  validateIncomingSyncMessage payload

/-- **Permission is a joined connection of the user on the socket**, and nothing else. -/
theorem validateSyncPermission_ok {userId : UserId} (teamId : TeamId)
    {managedCommunity : Option (UserId → Option Session)} {socketId : SocketId} :
    validateSyncPermission userId teamId managedCommunity socketId = .ok () ↔
      ∃ authConnections, managedCommunity = some authConnections ∧
        authConnections userId = some { socketId := socketId, status := .JOINED } := by
  unfold validateSyncPermission
  cases managedCommunity with
  | none => simp only [reduceCtorEq, false_and, exists_false]
  | some authConnections =>
    simp only [Option.some.injEq, exists_eq_left']
    cases registered : authConnections userId with
    | none => simp only [reduceCtorEq]
    | some session =>
      obtain ⟨socket, status⟩ := session
      by_cases same : socket = socketId
      · subst same
        cases status <;> simp only [ne_eq, not_true, if_false, Option.some.injEq, Session.mk.injEq,
          reduceCtorEq, and_false]
      · simp only [ne_eq, same, not_false_eq_true, if_true, Option.some.injEq, Session.mk.injEq,
          false_and, reduceCtorEq]

/-- The message's entry is signed in the name of the user it names. -/
theorem validateIncomingSyncMessage_ok {payload : LogEntrySyncPayload} :
    validateIncomingSyncMessage payload = .ok () ↔
      payload.encEntry.userId = payload.encEntry.signature.author.name := by
  unfold validateIncomingSyncMessage
  split
  · next differ => simp only [reduceCtorEq, differ]
  · next same => simp only [not_ne_iff.mp same]

/-- **A message passes the checks** exactly if the user its entry names is joined on the socket and
is the author its signature names. -/
theorem checkMessage_ok {payload : LogEntrySyncPayload} {socketId : SocketId}
    {community : Option (UserId → Option Session)} :
    checkMessage payload socketId community = .ok () ↔
      (∃ authConnections, community = some authConnections ∧
        authConnections payload.encEntry.userId =
          some { socketId := socketId, status := .JOINED }) ∧
      payload.encEntry.userId = payload.encEntry.signature.author.name := by
  rw [← validateSyncPermission_ok payload.teamId, ← validateIncomingSyncMessage_ok]
  unfold checkMessage
  cases validateSyncPermission payload.encEntry.userId payload.teamId community socketId with
  | error e => simp only [bind, Except.bind, reduceCtorEq, false_and]
  | ok _ => simp only [bind, Except.bind, true_and]

end QuietStorage.Sync
