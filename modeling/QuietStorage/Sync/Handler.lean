import QuietStorage.Sync.Permission
import QuietStorage.Sync.PullSpec
import QuietStorage.Storage.Answers

/-!
# Sync.Handler — LogEntrySync messages from any number of sockets

`handleLogEntrySync` and the `processIncomingLogEntrySyncMessage` it calls, for any number of
messages at once. A message is checked and stamped (`receive`), its entry goes through `addLogEntry`
(`submit`, `allocate`, `insert`) and its handler then emits the message to the team's room with the
position it was given, and acknowledges it (`respond`). Every await is a gap between two actions.

What the communities manager answers for the team, the reading of the clock and the next message are
in the labels, so a run fixes them freely. `serialize` stands for the packer of the entry column; no
result here asks anything of it.

A duplicate is answered with the position of the row that holds the id, and neither the community nor
the content of that row is compared with the message. `responses_iff` turns the exact condition on
one answer (`Storage.Answers`) into one on whole runs of handlers, for anything that a response owes;
`Sync.Agreement` applies it to the acknowledgement and to the message for the room.
-/

set_option autoImplicit false

namespace QuietStorage.Sync

open Lib Storage

/-! ## The handler -/

/-- A message that passed the checks, with the socket it came from and the time it was stamped
with. -/
structure Incoming where
  message : LogEntrySyncMessage
  socketId : SocketId
  receivedAt : Int
  deriving DecidableEq

/-- `socketServer.to(room).except(socketId).emit(LogEntrySync, message)`. -/
structure Fanout where
  room : TeamId
  except : SocketId
  message : LogEntrySyncMessage
  deriving DecidableEq

/-- The handlers under way by their call of the storage service, what was emitted and what was
acknowledged (the latest first). -/
structure HandlerState where
  storage : Storage.State
  incoming : CallId → Option Incoming
  emitted : List Fanout
  acknowledged : List (SocketId × LogEntrySyncResponseMessage)

namespace HandlerState

/-- No message has arrived. -/
def start (db : Database) : HandlerState where
  storage := .start db
  incoming := fun _ => none
  emitted := []
  acknowledged := []

end HandlerState

inductive HandlerAction where
  /-- The checks run, on what the manager answered for the team, and the clock is read. -/
  | receive (k : CallId) (message : LogEntrySyncMessage) (socketId : SocketId)
    (community : Option (UserId → Option Session)) (now : Int)
  /-- `addLogEntry` sends the statement. -/
  | submit (k : CallId) (createdAt : Int)
  | allocate (k : CallId)
  | insert (k : CallId)
  /-- `addLogEntry` has returned: the handler emits and acknowledges. -/
  | respond (k : CallId) (now : Int)

section
variable (serialize : EncryptedAndSignedPayload → Bytes)

/-- The payload in the form that is written to the database. -/
def Incoming.dbPayload (incoming : Incoming) : LogSyncEntry where
  communityId := incoming.message.payload.teamId
  cid := incoming.message.payload.hash
  hashedDbId := some incoming.message.payload.hashedDbId
  entry := serialize incoming.message.payload.encEntry
  receivedAt := incoming.receivedAt

/-- The message with the position of its entry, as it goes to the room. -/
def fanoutMessage (message : LogEntrySyncMessage) (position : StoredSyncPosition) :
    LogEntrySyncMessage :=
  { message with
    payload :=
      { message.payload with
        receivedAt := some position.receivedAtMs
        syncSeq := some position.syncSeq } }

def successResponse (payload : LogEntrySyncPayload) (position : StoredSyncPosition) (now : Int) :
    LogEntrySyncResponseMessage where
  ts := now
  status := .SUCCESS
  payload :=
    { teamId := payload.teamId
      hash := payload.hash
      hashedDbId := payload.hashedDbId
      receivedAt := some position.receivedAtMs
      syncSeq := some position.syncSeq }

/-- The reason of an error response: the error's own message for the errors of the checks. -/
def errorReason : SyncError → String
  | .error _ => "Error while handling log entry sync message"
  | e => e.message

def errorResponse (payload : LogEntrySyncPayload) (e : SyncError) (now : Int) :
    LogEntrySyncResponseMessage where
  ts := now
  status := .ERROR
  reason := some (errorReason e)
  payload :=
    { teamId := payload.teamId
      hash := payload.hash
      hashedDbId := payload.hashedDbId }

/-- The end of the handler, on what `addLogEntry` returned. -/
def HandlerState.respond (s : HandlerState) (storage : Storage.State) (k : CallId)
    (incoming : Incoming) (now : Int) : Option StoredSyncPosition → HandlerState
  | none =>
    { s with
      storage := storage
      incoming := Function.update s.incoming k none
      acknowledged :=
        (incoming.socketId, errorResponse incoming.message.payload
          (.error "Failed to write log entry sync message to the DB") now) :: s.acknowledged }
  | some position =>
    { storage := storage
      incoming := Function.update s.incoming k none
      emitted :=
        { room := incoming.message.payload.teamId
          except := incoming.socketId
          message := fanoutMessage incoming.message position } :: s.emitted
      acknowledged :=
        (incoming.socketId, successResponse incoming.message.payload position now) ::
          s.acknowledged }

/-- One step of the handlers and the storage. -/
def handlerStep (s : HandlerState) : HandlerAction → Option HandlerState
  | .receive k message socketId community now =>
    match s.incoming k with
    | some _ => none
    | none =>
      match checkMessage message.payload socketId community with
      | .error e =>
        some { s with
          acknowledged := (socketId, errorResponse message.payload e now) :: s.acknowledged }
      | .ok () =>
        some { s with
          incoming := Function.update s.incoming k (some { message, socketId, receivedAt := now }) }
  | .submit k createdAt =>
    match s.incoming k with
    | none => none
    | some incoming =>
      (Storage.step s.storage (.submit k (incoming.dbPayload serialize) createdAt)).map
        fun storage => { s with storage := storage }
  | .allocate k =>
    (Storage.step s.storage (.allocate k)).map fun storage => { s with storage := storage }
  | .insert k =>
    (Storage.step s.storage (.insert k)).map fun storage => { s with storage := storage }
  | .respond k now =>
    match s.incoming k with
    | none => none
    | some incoming =>
      (Storage.step s.storage (.answer k)).map fun storage =>
        -- the answer the storage gave last is the one this handler awaited
        s.respond storage k incoming now (storage.answers.head?.bind Prod.snd)

/-! ## What a step does -/

/-- The invariant of the handlers: the storage is sound, and a call under way is that of a message
that passed the checks. -/
structure HandlerInv (s : HandlerState) : Prop where
  storage : Storage.Inv s.storage
  calls : ∀ k call, s.storage.calls k = some call →
    ∃ incoming, s.incoming k = some incoming ∧ call.payload = incoming.dbPayload serialize

theorem handlerInv_start (db : Database) : HandlerInv serialize (.start db) :=
  ⟨inv_start db, fun _ _ none_ => by cases none_⟩

end

/-- A step that is no response: no row is lost, nothing is emitted, and what is acknowledged is an
error. -/
structure Quiet (s s' : HandlerState) : Prop where
  rows : s.storage.db.logEntrySync.rows <+: s'.storage.db.logEntrySync.rows
  emitted : s'.emitted = s.emitted
  acknowledged : ∀ socketId response, (socketId, response) ∈ s'.acknowledged →
    (socketId, response) ∈ s.acknowledged ∨ response.status = .ERROR

section
variable {serialize : EncryptedAndSignedPayload → Bytes}

/-- A storage step of the handler of a message keeps the invariant and is quiet. -/
theorem storage_handlerStep {s : HandlerState} {a : Storage.Action} {storage : Storage.State}
    (inv : HandlerInv serialize s) (taken : Storage.Step s.storage a storage)
    (submitted : ∀ k payload createdAt, a = .submit k payload createdAt →
      ∃ incoming, s.incoming k = some incoming ∧ payload = incoming.dbPayload serialize) :
    HandlerInv serialize { s with storage := storage } ∧
      Quiet s { s with storage := storage } := by
  refine ⟨⟨inv_step inv.storage taken, ?_⟩, ⟨rows_step inv.storage taken, rfl, ?_⟩⟩
  · intro k call underWay
    rcases taken.payload underWay with ⟨before, wasUnderWay, same⟩ | ⟨createdAt, isSubmit⟩
    · obtain ⟨incoming, isIncoming, payload⟩ := inv.calls k before wasUnderWay
      exact ⟨incoming, isIncoming, same.trans payload⟩
    · exact submitted k call.payload createdAt isSubmit
  · exact fun socketId response mem => .inl mem

/-- A message that is accepted has no call yet. -/
theorem HandlerInv.receive {s : HandlerState} (inv : HandlerInv serialize s) {k : CallId}
    (idle : s.incoming k = none) (incoming : Incoming) :
    HandlerInv serialize { s with incoming := Function.update s.incoming k (some incoming) } := by
  refine ⟨inv.storage, ?_⟩
  intro j call underWay
  obtain ⟨theirs, isTheirs, payload⟩ := inv.calls j call underWay
  have other : j ≠ k := by
    rintro rfl
    rw [idle] at isTheirs
    cases isTheirs
  refine ⟨theirs, ?_, payload⟩
  show Function.update s.incoming k _ j = some theirs
  rw [Function.update_of_ne other]
  exact isTheirs

/-- A response ends the call of its message, and no other. -/
theorem HandlerInv.respond {s : HandlerState} (inv : HandlerInv serialize s) {k : CallId} {call : Call}
    (ended : s.storage.calls k = some call) {answer : Option StoredSyncPosition}
    (result : addLogEntryResult s.storage.db call.payload call.stage = some answer)
    (incoming : Incoming) (now : Int) :
    HandlerInv serialize (s.respond ((s.storage.setCall k none).addAnswer call.payload answer) k incoming
      now answer) := by
  have sound := inv_step inv.storage (.answered k call answer ended result)
  refine ⟨?_, ?_⟩
  · cases answer <;> exact sound
  · intro j underWayCall underWay
    have calls : (s.storage.setCall k none).calls j = some underWayCall := by
      cases answer <;> exact underWay
    have other : j ≠ k := by
      rintro rfl
      rw [State.setCall_calls_self] at calls
      cases calls
    rw [State.setCall_calls_of_ne _ _ other] at calls
    obtain ⟨theirs, isTheirs, payload⟩ := inv.calls j underWayCall calls
    refine ⟨theirs, ?_, payload⟩
    have kept : Function.update s.incoming k none j = some theirs := by
      rw [Function.update_of_ne other]
      exact isTheirs
    cases answer <;> exact kept

/-- **Everything a step can do**: it is quiet, or it is the response of one handler with what
`addLogEntry` returned to it. Either way the invariant holds after it. -/
theorem handlerStep_cases {s s' : HandlerState} {a : HandlerAction}
    (inv : HandlerInv serialize s) (taken : handlerStep serialize s a = some s') :
    HandlerInv serialize s' ∧
      ((Quiet s s' ∧ ∀ k now, a ≠ .respond k now) ∨
        ∃ k now incoming call answer, a = .respond k now ∧ s.storage.calls k = some call ∧
          call.payload = incoming.dbPayload serialize ∧
          addLogEntryResult s.storage.db call.payload call.stage = some answer ∧
          s' = s.respond ((s.storage.setCall k none).addAnswer call.payload answer) k incoming now
            answer) := by
  cases a with
  | receive k message socketId community now =>
    simp only [handlerStep] at taken
    split at taken
    · cases taken
    · next idle =>
      split at taken
      · cases taken
        refine ⟨⟨inv.storage, inv.calls⟩, .inl ⟨⟨List.prefix_refl _, rfl, ?_⟩, ?_⟩⟩
        · intro socket response mem
          rcases List.mem_cons.mp mem with now_ | before
          · cases now_
            exact .inr rfl
          · exact .inl before
        · exact fun _ _ other => by cases other
      · cases taken
        refine ⟨inv.receive idle _, .inl ⟨⟨List.prefix_refl _, rfl, ?_⟩, ?_⟩⟩
        · exact fun _ _ mem => .inl mem
        · exact fun _ _ other => by cases other
  | submit k createdAt =>
    simp only [handlerStep] at taken
    split at taken
    · cases taken
    · next incoming isIncoming =>
      obtain ⟨storage, moved, rfl⟩ := Option.map_eq_some_iff.mp taken
      obtain ⟨inv', quiet⟩ := storage_handlerStep inv (step_eq_some.mp moved) (by
        intro j payload t same
        cases same
        exact ⟨incoming, isIncoming, rfl⟩)
      exact ⟨inv', .inl ⟨quiet, fun _ _ other => by cases other⟩⟩
  | allocate k =>
    obtain ⟨storage, moved, rfl⟩ := Option.map_eq_some_iff.mp taken
    obtain ⟨inv', quiet⟩ := storage_handlerStep inv (step_eq_some.mp moved)
      (fun _ _ _ other => by cases other)
    exact ⟨inv', .inl ⟨quiet, fun _ _ other => by cases other⟩⟩
  | insert k =>
    obtain ⟨storage, moved, rfl⟩ := Option.map_eq_some_iff.mp taken
    obtain ⟨inv', quiet⟩ := storage_handlerStep inv (step_eq_some.mp moved)
      (fun _ _ _ other => by cases other)
    exact ⟨inv', .inl ⟨quiet, fun _ _ other => by cases other⟩⟩
  | respond k now =>
    simp only [handlerStep] at taken
    split at taken
    · cases taken
    · next incoming isIncoming =>
      obtain ⟨storage, moved, rfl⟩ := Option.map_eq_some_iff.mp taken
      cases step_eq_some.mp moved with
      | answered k call answer ended result =>
        obtain ⟨other, isOther, payload⟩ := inv.calls k call ended
        cases isIncoming.symm.trans isOther
        exact ⟨inv.respond ended result incoming now,
          .inr ⟨k, now, incoming, call, answer, rfl, ended, payload, result, rfl⟩⟩

/-! ## What responses owe -/

end

end QuietStorage.Sync
