import Mathlib.Data.Finset.Basic
import Mathlib.Data.Finset.Lattice.Basic
import QuietStorage.Lib.JsMap
import QuietStorage.Lib.Run
import QuietStorage.Sync.Permission

/-!
# Communities.Manager — the communities in memory, their chains and their auth connections

`CommunitiesManagerService` with the `AuthConnection`s it starts, as one machine: `get`, `create`,
`startAuthSyncConnection`, the LFA events of every connection, the 'disconnect' event of every
socket, the storage writes of the 'update' listeners, the expiry sweep and the restart of the
process. An asynchronous call is a task that moves from one await to the next, and any other action
may come between; what runs without an await is one action.

**Objects.** A chain, an auth connection and a map of connections are objects that several places
refer to. Each is here its immutable fields with a serial number, and what changes in it (the links
of a chain's graph, the status of a connection, the entries of a map) is a function of the object in
the state. A managed community is a record that is replaced, never shared, so it is a plain value.

**Outside.** `Lfa` stands for `@localfirst/auth`: loading and saving a team graph and listing its
members. Its connections are seen through the events they emit, which come in any order and any
number of times. Secrets are retrieved or not, a database call succeeds or not, and the clock reads
anything: these choices are in the labels of the actions.

**The trace** records what the results are about: what each `AuthDisconnected` event removed, which
links were reported, which communities were dropped and loaded, and which messages passed the checks
of the log sync. No function of the service reads it.

Left out: the logger, the payloads of the LFA messages, the room a socket joins, and the captcha.
-/

set_option autoImplicit false

namespace QuietStorage.Communities

open Lib Sync

/-! ## Team graphs and objects -/

/-- The hash of one link of a team graph: one operation on the team. -/
abbrev Link := String

/-- A team: the id of its graph, and the links of the graph. -/
structure Team where
  id : TeamId
  links : Finset Link
  deriving DecidableEq

/-- What the service uses of `@localfirst/auth`. A serialized graph is a `Blob`. -/
structure Lfa (Blob : Type) where
  loadTeam : Blob → Option Team
  save : Team → Blob
  members : Team → List UserId

/-- Graphs that are stored as they are, with a choice of members. -/
def Lfa.plain (members : Team → List UserId) : Lfa Team where
  loadTeam := some
  save := id
  members := members

/-- A `SigChain`: the team in it has the id `teamId`, and `listens` says whether an 'update' listener
that stores the chain was put on it. -/
structure SigChain where
  id : Nat
  teamId : TeamId
  listens : Bool
  deriving DecidableEq, Repr

/-- An `AuthConnection`, with the community it was started for. -/
structure AuthConnection where
  id : Nat
  userId : UserId
  communityId : TeamId
  sigChain : SigChain
  socketId : SocketId
  deriving DecidableEq, Repr

/-- An `AuthConnectionMap`, with the community it was made for. -/
structure MapRef where
  id : Nat
  communityId : TeamId
  deriving DecidableEq, Repr

structure ManagedCommunity where
  teamId : TeamId
  sigChain : SigChain
  authConnections : Option MapRef := none
  expiryMs : Option Int := none
  deriving DecidableEq, Repr

/-- Five minutes without a connection and a community may leave the memory. -/
def MANAGED_COMMUNITY_TTL_MS : Int := 300000

/-! ## Tasks -/

abbrev TaskId := Nat

/-- Who called `get`, and goes on with what it returned: the sign-in handler, the log sync, or a
handler that only reads. -/
inductive Caller where
  | signIn (teamId : TeamId) (userId : UserId) (socketId : SocketId)
  | logEntrySync (payload : LogEntrySyncPayload) (socketId : SocketId)
  | reader (teamId : TeamId)
  deriving DecidableEq

/-- The team that the caller asks for. -/
def Caller.teamId : Caller → TeamId
  | .signIn teamId _ _ => teamId
  | .logEntrySync payload _ => payload.teamId
  | .reader teamId => teamId

/-- The arguments of `create`; `sigChain` is the decoded `community.sigChain`. -/
structure CreateRequest (Blob : Type) where
  userId : UserId
  teamId : TeamId
  sigChain : Blob
  socketId : SocketId
  deriving DecidableEq

/-- Where an asynchronous call waits. -/
inductive Task (Blob : Type) where
  | idle
  /-- `get`: `storage.getCommunity` is under way. -/
  | reading (caller : Caller)
  /-- `get`: the row was read, the server keys and the team keys are under way. -/
  | retrievingKeys (caller : Caller) (sigChain : Blob)
  /-- `get` has returned; its caller has not gone on yet. -/
  | resolved (caller : Caller) (managedCommunity : Option ManagedCommunity)
  /-- `create`: the server keys are under way. -/
  | creating (request : CreateRequest Blob)
  /-- `create`: the chain is loaded, the team keyring is being stored. -/
  | storingKeyring (request : CreateRequest Blob) (team : Team)
  /-- `create`: `storage.addCommunity` is under way. -/
  | adding (request : CreateRequest Blob) (team : Team)
  /-- `create`: `addCommunity` has answered. -/
  | added (request : CreateRequest Blob) (team : Team) (stored : Bool)

/-! ## The state -/

/-- What the results are about. -/
inductive Event where
  /-- An `AuthDisconnected` event of `connection` was handled; `removed` left the map. -/
  | authDisconnected (connection : AuthConnection) (removed : Option AuthConnection)
  /-- A connection of the community reported an update of the graph. -/
  | reported (communityId : TeamId) (links : Finset Link)
  /-- The community left the memory. -/
  | dropped (communityId : TeamId)
  /-- `get` loaded the community from storage. -/
  | loaded (communityId : TeamId) (links : Finset Link)
  /-- The message from the socket passed the checks on `connection`, whose status and LFA peer are
  given, and its entry is handed to storage. -/
  | written (payload : LogEntrySyncPayload) (socketId : SocketId) (connection : AuthConnection)
    (status : AuthStatus) (peer : Option UserId)
  deriving DecidableEq

structure State (Blob : Type) where
  communities : JsMap TeamId ManagedCommunity
  /-- The entries of each map of connections. -/
  authConnections : MapRef → JsMap UserId AuthConnection
  /-- The links of each chain's graph. -/
  links : SigChain → Finset Link
  /-- The connections that were started in this process. -/
  started : List AuthConnection
  status : AuthConnection → AuthStatus
  /-- The member that the last LFA handshake of a connection authenticated. -/
  peer : AuthConnection → Option UserId
  /-- The connection was stopped, or its LFA connection closed. -/
  closed : AuthConnection → Bool
  /-- The serial number of the next object. -/
  next : Nat
  tasks : TaskId → Task Blob
  /-- The `communities` table. -/
  stored : TeamId → Option Blob
  /-- The updates of that table that were issued and have not completed. -/
  writes : List (TeamId × Blob)
  trace : List Event

namespace State

variable {Blob : Type}

/-- A fresh process over the stored communities. -/
def start (stored : TeamId → Option Blob) : State Blob where
  communities := .empty
  authConnections := fun _ => .empty
  links := fun _ => ∅
  started := []
  status := fun _ => .PENDING
  peer := fun _ => none
  closed := fun _ => false
  next := 0
  tasks := fun _ => .idle
  stored := stored
  writes := []
  trace := []

def setTask (s : State Blob) (k : TaskId) (task : Task Blob) : State Blob :=
  { s with tasks := Function.update s.tasks k task }

@[simp] theorem setTask_tasks (s : State Blob) (k : TaskId) (task : Task Blob) :
    (s.setTask k task).tasks k = task := Function.update_self ..

@[simp] theorem setTask_setTask (s : State Blob) (k : TaskId) (task task' : Task Blob) :
    (s.setTask k task).setTask k task' = s.setTask k task' := by
  simp only [setTask, Function.update_idem]

def record (s : State Blob) (event : Event) : State Blob :=
  { s with trace := s.trace ++ [event] }

/-- `this.communities.set(teamId, managedCommunity)`. -/
def setCommunity (s : State Blob) (teamId : TeamId) (managedCommunity : ManagedCommunity) :
    State Blob :=
  { s with communities := s.communities.set teamId managedCommunity }

/-- `authConnections.delete(userId)`. -/
def deleteConnection (s : State Blob) (ref : MapRef) (userId : UserId) : State Blob :=
  { s with authConnections :=
      Function.update s.authConnections ref ((s.authConnections ref).delete userId) }

/-- The team of a chain, as LFA has it at the moment. -/
def team (s : State Blob) (sigChain : SigChain) : Team := ⟨sigChain.teamId, s.links sigChain⟩

/-- `managedCommunity.authConnections?.get(userId)`. -/
def connectionOf (s : State Blob) (managedCommunity : ManagedCommunity) (userId : UserId) :
    Option AuthConnection :=
  managedCommunity.authConnections.bind fun ref => (s.authConnections ref).get? userId

/-- `managedCommunity.authConnections?.size ?? 0`. -/
def connectionCount (s : State Blob) (managedCommunity : ManagedCommunity) : Nat :=
  match managedCommunity.authConnections with
  | none => 0
  | some ref => (s.authConnections ref).size

/-- The connection that is registered for a user of a community in memory. -/
def registered (s : State Blob) (teamId : TeamId) (userId : UserId) : Option AuthConnection :=
  (s.communities.get? teamId).bind fun managedCommunity => s.connectionOf managedCommunity userId

/-- No user has a connection in the community. -/
def Unregistered (s : State Blob) (T : TeamId) : Prop := ∀ u, s.registered T u = none

/-! ## The end of a connection -/

/-- `managedCommunity.authConnections?.delete(userId)`. -/
def removeConnection (s : State Blob) (managedCommunity : ManagedCommunity) (userId : UserId) :
    State Blob :=
  match managedCommunity.authConnections with
  | none => s
  | some ref => s.deleteConnection ref userId

/-- The expiry of a community that has no open auth connections. -/
def expireUnused (s : State Blob) (teamId : TeamId) (managedCommunity : ManagedCommunity)
    (now : Int) : State Blob :=
  if s.connectionCount managedCommunity = 0 then
    s.setCommunity teamId
      { managedCommunity with expiryMs := some (now + MANAGED_COMMUNITY_TTL_MS) }
  else s

/-- The `AuthDisconnected` handler that `startAuthSyncConnection` puts on a connection, with the
clock reading `now`. -/
def authDisconnected (s : State Blob) (connection : AuthConnection) (now : Int) : State Blob :=
  let teamId := connection.sigChain.teamId
  let s := s.record (.authDisconnected connection (s.registered teamId connection.userId))
  match s.communities.get? teamId with
  | none => s
  | some managedCommunity =>
    (s.removeConnection managedCommunity connection.userId).expireUnused teamId managedCommunity now

/-- `this._status = status`. -/
def setStatus (s : State Blob) (connection : AuthConnection) (status : AuthStatus) : State Blob :=
  { s with status := Function.update s.status connection status }

/-- The LFA connection is shut. -/
def close (s : State Blob) (connection : AuthConnection) : State Blob :=
  { s with closed := Function.update s.closed connection true }

/-- The LFA 'disconnected' handler. -/
def lfaDisconnected (s : State Blob) (connection : AuthConnection) (now : Int) : State Blob :=
  ((s.close connection).setStatus connection .REJECTED_OR_CLOSED).authDisconnected connection now

/-- `stop`. `closes` says whether `lfaConnection.stop(true)` emits 'disconnected' before it
returns. -/
def stop (s : State Blob) (connection : AuthConnection) (closes : Bool) (now : Int) : State Blob :=
  let s := if closes then s.lfaDisconnected connection now else s
  (s.close connection).authDisconnected connection now

/-! ## The start of a connection -/

/-- What the LFA connections do inside `startAuthSyncConnection`, and the clock: `closes` is the
choice of `stop`, and `dies` says whether the new connection emits 'disconnected' inside `start`. -/
structure Env where
  closes : Bool
  dies : Bool
  now : Int
  deriving DecidableEq, Repr

/-- `managedCommunity.authConnections ?? new Map()`. -/
def connectionMap (s : State Blob) (teamId : TeamId) (managedCommunity : ManagedCommunity) :
    State Blob × MapRef :=
  match managedCommunity.authConnections with
  | some ref => (s, ref)
  | none =>
    let ref : MapRef := { id := s.next, communityId := teamId }
    ({ s with
        authConnections := Function.update s.authConnections ref .empty
        next := s.next + 1 }, ref)

/-- The connection that is started next. -/
def newConnection (s : State Blob) (userId : UserId) (teamId : TeamId) (socketId : SocketId)
    (managedCommunity : ManagedCommunity) : AuthConnection where
  id := s.next
  userId := userId
  communityId := teamId
  sigChain := managedCommunity.sigChain
  socketId := socketId

/-- `new AuthConnection(..)`, `authConnections.set(..)` and `this.communities.set(..)`. -/
def register (s : State Blob) (connection : AuthConnection) (managedCommunity : ManagedCommunity)
    (ref : MapRef) : State Blob :=
  { s with
    next := s.next + 1
    started := s.started ++ [connection]
    status := Function.update s.status connection .PENDING
    peer := Function.update s.peer connection none
    closed := Function.update s.closed connection false
    authConnections := Function.update s.authConnections ref
      ((s.authConnections ref).set connection.userId connection)
    communities := s.communities.set connection.communityId
      { managedCommunity with authConnections := some ref } }

/-- `AuthConnection.start`. -/
def startConnection (s : State Blob) (connection : AuthConnection) (env : Env) : State Blob :=
  let s := s.setStatus connection .JOINING
  if env.dies then s.lfaDisconnected connection env.now else s

/-- The expiry is removed, now that there is an open connection. -/
def clearExpiry (s : State Blob) (teamId : TeamId) : State Blob :=
  match s.communities.get? teamId with
  | none => s
  | some managedCommunity => s.setCommunity teamId { managedCommunity with expiryMs := none }

/-- A connection for a user is created, registered and started. -/
def connect (s : State Blob) (userId : UserId) (teamId : TeamId) (socketId : SocketId)
    (managedCommunity : ManagedCommunity) (ref : MapRef) (env : Env) : State Blob :=
  let connection := s.newConnection userId teamId socketId managedCommunity
  ((s.register connection managedCommunity ref).startConnection connection env).clearExpiry teamId

/-- An existing connection is used again if it is on the same socket and not dead. -/
def reuses (s : State Blob) (existingConn : AuthConnection) (socketId : SocketId) : Bool :=
  existingConn.socketId = socketId && s.status existingConn ≠ .REJECTED_OR_CLOSED

/-- `startAuthSyncConnection`; `none` if it throws `CommunityNotFoundError`. -/
def startAuthSyncConnection (s : State Blob) (userId : UserId) (teamId : TeamId)
    (socketId : SocketId) (env : Env) : Option (State Blob) :=
  match s.communities.get? teamId with
  | none => none
  | some managedCommunity =>
    let (s, authConnections) := s.connectionMap teamId managedCommunity
    match (s.authConnections authConnections).get? userId with
    | none => some (s.connect userId teamId socketId managedCommunity authConnections env)
    | some existingConn =>
      if s.reuses existingConn socketId then some s
      else
        let s := s.stop existingConn env.closes env.now
        let s := s.deleteConnection authConnections userId
        some (s.connect userId teamId socketId managedCommunity authConnections env)

/-! ## Chains enter the memory -/

/-- `SigChain.create` of a loaded team. The chain takes its serial number when it is put into the
map of communities: until then only its own task knows it. -/
def newChain (s : State Blob) (team : Team) (listens : Bool) : State Blob × SigChain :=
  let sigChain : SigChain := { id := s.next, teamId := team.id, listens := listens }
  ({ s with
      links := Function.update s.links sigChain team.links
      next := s.next + 1 }, sigChain)

/-- The end of `_processCommunityToManagedCommunity`: a chain with an 'update' listener, merged with
what is in memory. -/
def load (s : State Blob) (teamId : TeamId) (team : Team) : State Blob × ManagedCommunity :=
  let (s, sigChain) := s.newChain team true
  let managedCommunity : ManagedCommunity :=
    match s.communities.get? teamId with
    | none => { teamId := teamId, sigChain := sigChain }
    | some existing => { existing with teamId := teamId, sigChain := sigChain }
  ((s.setCommunity teamId managedCommunity).record (.loaded teamId team.links), managedCommunity)

/-- `create` puts its chain, which has no 'update' listener, into memory. -/
def putCreated (s : State Blob) (teamId : TeamId) (team : Team) : State Blob :=
  let (s, sigChain) := s.newChain team false
  s.setCommunity teamId { teamId := teamId, sigChain := sigChain }

/-- The end of `create`: the chain, then the connection of the creator. -/
def finishCreate (s : State Blob) (request : CreateRequest Blob) (team : Team) (env : Env) :
    State Blob :=
  let s := s.putCreated request.teamId team
  (s.startAuthSyncConnection request.userId request.teamId request.socketId env).getD s

/-! ## Log sync -/

/-- What `_validateSyncPermission` reads of a managed community. -/
def sessions (s : State Blob) (managedCommunity : ManagedCommunity) (userId : UserId) :
    Option Session :=
  (s.connectionOf managedCommunity userId).map fun connection =>
    { socketId := connection.socketId, status := s.status connection }

/-- `processIncomingLogEntrySyncMessage` once `get` has returned: the checks, and the entry goes to
storage. -/
def receive (s : State Blob) (payload : LogEntrySyncPayload) (socketId : SocketId)
    (managedCommunity : Option ManagedCommunity) : State Blob :=
  match checkMessage payload socketId (managedCommunity.map s.sessions) with
  | .error _ => s
  | .ok () =>
    match managedCommunity.bind fun community =>
      s.connectionOf community payload.encEntry.userId with
    | none => s
    | some connection =>
      s.record
        (.written payload socketId connection (s.status connection) (s.peer connection))

/-- The caller of `get` goes on. A sign-in to a community that is not in memory (any more) and a
message that fails the checks are answered with an error. -/
def goOn (s : State Blob) (caller : Caller) (managedCommunity : Option ManagedCommunity)
    (env : Env) : State Blob :=
  match caller with
  | .reader _ => s
  | .logEntrySync payload socketId => s.receive payload socketId managedCommunity
  | .signIn teamId userId socketId =>
    match managedCommunity with
    | none => s
    | some _ => (s.startAuthSyncConnection userId teamId socketId env).getD s

/-! ## The sweep and the restart -/

/-- `_clearUnusedCommunitiesFromMemory` at one community of the map. -/
def sweepOne (now : Int) (s : State Blob) (key : TeamId) : State Blob :=
  match s.communities.get? key with
  | none => s
  | some community =>
    match community.expiryMs with
    | none => s
    | some expiryMs =>
      if 0 < s.connectionCount community then
        s.setCommunity community.teamId { community with expiryMs := none }
      else if expiryMs ≤ now then
        record { s with communities := s.communities.delete community.teamId }
          (.dropped community.teamId)
      else s

/-- `_clearUnusedCommunitiesFromMemory`. -/
def sweep (s : State Blob) (now : Int) : State Blob :=
  s.communities.keys.foldl (sweepOne now) s

/-- The process ends and a new one starts. Writes that were issued may still complete. -/
def restart (s : State Blob) : State Blob :=
  { s with
    communities := .empty
    started := []
    tasks := fun _ => .idle
    trace := s.trace ++ s.communities.keys.map .dropped }

end State

/-! ## The machine -/

inductive Action (Blob : Type) where
  | get (k : TaskId) (caller : Caller) (forceFetchFromStorage : Bool)
  /-- The row of the community is read, or the database fails. -/
  | communityRead (k : TaskId) (answers : Bool)
  /-- The keys of the community were retrieved, or could not be. -/
  | keysRetrieved (k : TaskId) (found : Bool)
  /-- The caller of `get` goes on. -/
  | resume (k : TaskId) (env : State.Env)
  | create (k : TaskId) (request : CreateRequest Blob)
  | serverKeysRetrieved (k : TaskId) (found : Bool)
  | keyringStored (k : TaskId) (stored : Bool)
  /-- The insert of `addCommunity` commits, or fails. -/
  | communityAdded (k : TaskId) (answers : Bool)
  /-- `create` goes on after `addCommunity`. -/
  | created (k : TaskId) (env : State.Env)
  /-- LFA 'connected': the handshake authenticated the member `peer`. -/
  | connected (connection : AuthConnection) (peer : UserId)
  /-- LFA 'disconnected'. -/
  | disconnected (connection : AuthConnection) (now : Int)
  /-- LFA 'updated': the links were merged into the team. -/
  | updated (connection : AuthConnection) (received : Finset Link)
  /-- The 'disconnect' event of the connection's socket. -/
  | socketDisconnected (connection : AuthConnection) (closes : Bool) (now : Int)
  /-- A storage write that was issued completes, or fails. -/
  | writeCompleted (i : Nat) (succeeds : Bool)
  | sweep (now : Int)
  | restart

section
variable {Blob : Type} (lfa : Lfa Blob)

namespace State

/-- `get` up to its first await. -/
def get (s : State Blob) (k : TaskId) (caller : Caller) (forceFetchFromStorage : Bool) :
    State Blob :=
  match s.communities.get? caller.teamId, forceFetchFromStorage with
  | some managedCommunity, false => s.setTask k (.resolved caller (some managedCommunity))
  | _, _ => s.setTask k (.reading caller)

/-- `get` with the answer of `storage.getCommunity`. -/
def readCommunity (s : State Blob) (k : TaskId) (caller : Caller) (answers : Bool) : State Blob :=
  match s.stored caller.teamId, answers with
  | some sigChain, true => s.setTask k (.retrievingKeys caller sigChain)
  | _, _ => s.setTask k (.resolved caller none)

/-- `_processCommunityToManagedCommunity` with the keys. A graph that LFA cannot load makes it
throw. -/
def processCommunity (s : State Blob) (k : TaskId) (caller : Caller) (sigChain : Blob) :
    State Blob :=
  match lfa.loadTeam sigChain with
  | none => s.setTask k .idle
  | some team =>
    let (s, managedCommunity) := s.load caller.teamId team
    s.setTask k (.resolved caller (some managedCommunity))

/-- `create` with the server keys: the chain is loaded, and it must have no more than one member. -/
def loadCreated (s : State Blob) (k : TaskId) (request : CreateRequest Blob) : State Blob :=
  match lfa.loadTeam request.sigChain with
  | none => s.setTask k .idle
  | some team =>
    if 1 < (lfa.members team).length then s.setTask k .idle
    else s.setTask k (.storingKeyring request team)

/-- `addCommunity`: the insert of a row. It fails if the team has one. -/
def addCommunity (s : State Blob) (k : TaskId) (request : CreateRequest Blob) (team : Team)
    (answers : Bool) : State Blob :=
  match answers, s.stored request.teamId with
  | true, none =>
    setTask { s with stored := Function.update s.stored request.teamId (some request.sigChain) } k
      (.added request team true)
  | _, _ => s.setTask k (.added request team false)

/-- The LFA handshake has authenticated `peer`. -/
def setPeer (s : State Blob) (connection : AuthConnection) (peer : UserId) : State Blob :=
  { s with peer := Function.update s.peer connection (some peer) }

/-- LFA merges the received links into the team and emits 'updated'; the chain's 'update' listener,
if there is one, issues a write of the chain. -/
def update (s : State Blob) (connection : AuthConnection) (received : Finset Link) : State Blob :=
  let sigChain := connection.sigChain
  let s := { s with links := Function.update s.links sigChain (s.links sigChain ∪ received) }
  let s := s.record (.reported connection.communityId received)
  if sigChain.listens then
    { s with writes := s.writes ++ [(sigChain.teamId, lfa.save (s.team sigChain))] }
  else s

/-- `updateCommunity` in the database: it changes the row that is there. -/
def completeWrite (s : State Blob) (i : Nat) (teamId : TeamId) (blob : Blob) (succeeds : Bool) :
    State Blob :=
  { s with
    writes := s.writes.eraseIdx i
    stored :=
      if succeeds && (s.stored teamId).isSome then Function.update s.stored teamId (some blob)
      else s.stored }

end State

/-- One action, `none` if it is not enabled. -/
def step (s : State Blob) : Action Blob → Option (State Blob)
  | .get k caller forceFetchFromStorage =>
    match s.tasks k with
    | .idle => some (s.get k caller forceFetchFromStorage)
    | _ => none
  | .communityRead k answers =>
    match s.tasks k with
    | .reading caller => some (s.readCommunity k caller answers)
    | _ => none
  | .keysRetrieved k found =>
    match s.tasks k with
    | .retrievingKeys caller sigChain =>
      if found then some (s.processCommunity lfa k caller sigChain)
      else some (s.setTask k (.resolved caller none))
    | _ => none
  | .resume k env =>
    match s.tasks k with
    | .resolved caller managedCommunity =>
      some ((s.setTask k .idle).goOn caller managedCommunity env)
    | _ => none
  | .create k request =>
    match s.tasks k with
    | .idle => some (s.setTask k (.creating request))
    | _ => none
  | .serverKeysRetrieved k found =>
    match s.tasks k with
    | .creating request =>
      if found then some (s.loadCreated lfa k request) else some (s.setTask k .idle)
    | _ => none
  | .keyringStored k stored =>
    match s.tasks k with
    | .storingKeyring request team =>
      if stored then some (s.setTask k (.adding request team)) else some (s.setTask k .idle)
    | _ => none
  | .communityAdded k answers =>
    match s.tasks k with
    | .adding request team => some (s.addCommunity k request team answers)
    | _ => none
  | .created k env =>
    match s.tasks k with
    | .added request team stored =>
      if stored then some ((s.setTask k .idle).finishCreate request team env)
      else some (s.setTask k .idle)
    | _ => none
  | .connected connection peer =>
    if connection ∈ s.started ∧ peer ∈ lfa.members (s.team connection.sigChain) then
      some ((s.setPeer connection peer).setStatus connection .JOINED)
    else none
  | .disconnected connection now =>
    if connection ∈ s.started then some (s.lfaDisconnected connection now) else none
  | .updated connection received =>
    if connection ∈ s.started then some (s.update lfa connection received) else none
  | .socketDisconnected connection closes now =>
    if connection ∈ s.started then some (s.stop connection closes now) else none
  | .writeCompleted i succeeds =>
    match s.writes[i]? with
    | none => none
    | some (teamId, blob) => some (s.completeWrite i teamId blob succeeds)
  | .sweep now => some (s.sweep now)
  | .restart => some s.restart

end

end QuietStorage.Communities
