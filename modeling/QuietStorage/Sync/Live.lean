import QuietStorage.Sync.Agreement
import QuietStorage.Sync.CatchUp

/-!
# Sync.Live — a client that pulls the log and hears the room

A client gets the entries of its team on two ways: it pulls what is in the log, and what is written
while its socket is in the team's room is emitted to it. The ways overlap, and between them lies the
time from the commit of a row to its emission. `LiveState` is the handlers of any number of sockets
(`Sync.Handler`) with one client (`Sync.Reader`) that is on a socket, joins the room, pulls, loses its
socket and comes back on another one.

**Nothing falls between the two ways** (`nothing_missed`): a client that was told once on its socket,
after it joined the room, that there is no next page, has every matching row: it pulled it, or it heard
it, or the row was its own and acknowledged to it, or the handler of the row has not responded yet.
The pages are read from the primary, as they are where `POSTGRES_READ_REPLICA_HOSTS` is not set: a row
that has been emitted, but has not reached the replica that tells a client that no page is left, would be
missed. The numbers are exact.

What carries the proof is that a row has its handler under way from its commit to its emission
(`added_handlerStep`, `underWay_step`), and that what its own handler emits is the row
(`told_of_response`), whatever others emitted for the same id.
-/

set_option autoImplicit false

namespace QuietStorage.Sync

open Lib Storage

/-! ## The system -/

/-- The handlers, the client with the socket that it is on, whether the socket is in the room, whether
it was told there that no page is left, and what it heard there (the latest first). -/
structure LiveState where
  handlers : HandlerState
  reader : Reader
  socketId : SocketId
  joined : Bool
  caughtUp : Bool
  heard : List LogEntrySyncMessage

namespace LiveState

/-- No message has arrived, and the client wants the log after `start`. -/
def start (db : Database) (start : Int) (socketId : SocketId) : LiveState where
  handlers := .start db
  reader := { received := [], cursor := start, request := none }
  socketId := socketId
  joined := false
  caughtUp := false
  heard := []

/-- The client and the storage that it reads. -/
def readerState (s : LiveState) : ReaderState := { storage := s.handlers.storage, reader := s.reader }

/-- An emission reaches the sockets in its room, except the one it is made for. -/
def hears (s : LiveState) (teamId : TeamId) (fanout : Fanout) : Bool :=
  s.joined && fanout.room == teamId && fanout.except != s.socketId

end LiveState

inductive LiveAction where
  /-- A step of the handlers, of any socket. -/
  | handle (a : HandlerAction)
  /-- The client loses its socket and is on another one. -/
  | connect (socketId : SocketId)
  /-- The socket joins the room of the team. -/
  | join
  | request (limit : Option Nat)
  | page
  /-- The request is answered with an error. -/
  | refuse

section
variable (serialize : EncryptedAndSignedPayload → Bytes) (filters : LogEntryPullPayload)

/-- What a step of the handlers emitted. -/
def emittedBy (handlers handlers' : HandlerState) : List Fanout :=
  handlers'.emitted.take (handlers'.emitted.length - handlers.emitted.length)

/-- The server answers, and says that no page is left. -/
def isLast (s : ReaderState) : Bool :=
  (answer filters s).any fun response => !response.hasNextPage

/-- One step of the system. A page is read from the primary. -/
def liveStep (s : LiveState) : LiveAction → Option LiveState
  | .handle a =>
    (handlerStep serialize s.handlers a).map fun handlers =>
      { s with
        handlers := handlers
        heard := ((emittedBy s.handlers handlers).filter (s.hears filters.teamId)).map (·.message) ++
          s.heard }
  | .connect socketId =>
    some { s with
      reader := { s.reader with request := none }
      socketId := socketId
      joined := false
      caughtUp := false
      heard := [] }
  | .join => some { s with joined := true }
  | .request limit =>
    (readerStep filters s.readerState (.request limit)).map fun moved =>
      { s with reader := moved.reader }
  | .page =>
    (readerStep filters s.readerState .page).map fun moved =>
      { s with
        reader := moved.reader
        caughtUp := s.caughtUp || (s.joined && isLast filters s.readerState) }
  | .refuse => some { s with reader := { s.reader with request := none } }

/-! ## What the client knows -/

/-- The message is the row. -/
structure Carries (message : LogEntrySyncMessage) (row : LogEntrySync) : Prop where
  teamId : message.payload.teamId = row.communityId
  hash : message.payload.hash = row.id
  hashedDbId : some message.payload.hashedDbId = row.hashedDbId
  entry : serialize message.payload.encEntry = row.entry
  receivedAt : message.payload.receivedAt = some row.receivedAt
  syncSeq : message.payload.syncSeq = some (seqOf row)

/-- The response gives the client the position of the row. -/
structure Acknowledges (response : LogEntrySyncResponseMessage) (row : LogEntrySync) : Prop where
  status : response.status = .SUCCESS
  teamId : response.payload.teamId = row.communityId
  hash : response.payload.hash = row.id
  receivedAt : response.payload.receivedAt = some row.receivedAt
  syncSeq : response.payload.syncSeq = some (seqOf row)

/-- The handler that stored the row has not responded yet. -/
def UnderWay (s : HandlerState) (row : LogEntrySync) : Prop :=
  ∃ k call n, s.storage.calls k = some call ∧ call.stage = .returned n ∧
    row = rowOf call.payload call.createdAt n

/-- On its socket the client heard the row, or was acknowledged it; or it will be. -/
def Told (s : LiveState) (row : LogEntrySync) : Prop :=
  (∃ message ∈ s.heard, Carries serialize message row) ∨
    (∃ response, (s.socketId, response) ∈ s.handlers.acknowledged ∧ Acknowledges response row) ∨
    UnderWay s.handlers row

end

/-! ## The handlers -/

section
variable {serialize : EncryptedAndSignedPayload → Bytes} {s s' : HandlerState} {a : HandlerAction}

/-- Nothing that was emitted or acknowledged is taken back. -/
theorem sent_grows (taken : handlerStep serialize s a = some s') :
    s.emitted <:+ s'.emitted ∧ s.acknowledged <:+ s'.acknowledged := by
  have ofStorage : ∀ {b : Storage.Action},
      ((Storage.step s.storage b).map fun storage => { s with storage := storage }) = some s' →
        s.emitted <:+ s'.emitted ∧ s.acknowledged <:+ s'.acknowledged := by
    intro b moved
    obtain ⟨storage, -, rfl⟩ := Option.map_eq_some_iff.mp moved
    exact ⟨List.suffix_refl _, List.suffix_refl _⟩
  cases a with
  | receive k message socketId community now =>
    simp only [handlerStep] at taken
    split at taken
    · cases taken
    · split at taken
      · cases taken
        exact ⟨List.suffix_refl _, List.suffix_cons _ _⟩
      · cases taken
        exact ⟨List.suffix_refl _, List.suffix_refl _⟩
  | submit k createdAt =>
    simp only [handlerStep] at taken
    split at taken
    · cases taken
    · exact ofStorage taken
  | allocate k => exact ofStorage taken
  | insert k => exact ofStorage taken
  | respond k now =>
    simp only [handlerStep] at taken
    split at taken
    · cases taken
    · next incoming isIncoming =>
      obtain ⟨storage, -, rfl⟩ := Option.map_eq_some_iff.mp taken
      cases storage.answers.head?.bind Prod.snd with
      | none => exact ⟨List.suffix_refl _, List.suffix_cons _ _⟩
      | some position => exact ⟨List.suffix_cons _ _, List.suffix_cons _ _⟩

/-- A call that has returned stays until it is answered. -/
theorem returned_stays {s s' : Storage.State} {a : Storage.Action} (taken : Storage.Step s a s')
    {k : CallId} {call : Call} {n : JsNumber.Bigint} (underWay : s.calls k = some call)
    (returned : call.stage = .returned n) : s'.calls k = some call ∨ a = .answer k := by
  -- a step moves one call, which has not returned, unless it answers it
  have other : ∀ {j : CallId} {moved : Option Call} {stage : Stage} {payload : LogSyncEntry}
      {createdAt : Int}, s.calls j = some { payload, createdAt, stage } → stage ≠ .returned n →
        (s.setCall j moved).calls k = some call := by
    intro j moved stage payload createdAt isCall notReturned
    rw [State.setCall_calls_of_ne _ _ (fun same => ?_)]
    · exact underWay
    · subst same
      cases isCall.symm.trans underWay
      exact notReturned returned
  cases taken with
  | submitted j payload createdAt idle =>
    refine .inl ?_
    rw [State.setCall_calls_of_ne _ _ (fun same => ?_)]
    · exact underWay
    · subst same
      rw [idle] at underWay
      cases underWay
  | exhausted j payload createdAt recovered isCall free none_ =>
    exact .inl (other isCall fun same => by cases same)
  | allocated j payload createdAt recovered taken isCall free some_ =>
    exact .inl (other isCall fun same => by cases same)
  | refused j payload createdAt taken e isCall violates =>
    exact .inl (other isCall fun same => by cases same)
  | committed j payload createdAt taken table isCall inserts =>
    exact .inl (other isCall fun same => by cases same)
  | answered j ended answer isCall result =>
    by_cases same : k = j
    · exact .inr (by rw [same])
    · exact .inl (by rw [State.addAnswer_calls, State.setCall_calls_of_ne _ _ same]; exact underWay)

/-- A row that a step adds is that of a call that has returned. -/
theorem added_underWay {s s' : Storage.State} {a : Storage.Action} (inv : Storage.Inv s)
    (taken : Storage.Step s a s') {row : LogEntrySync} (mem : row ∈ s'.db.logEntrySync.rows) :
    row ∈ s.db.logEntrySync.rows ∨ ∃ k call n, s'.calls k = some call ∧ call.stage = .returned n ∧
      row = rowOf call.payload call.createdAt n := by
  rcases db_step inv taken with same | ⟨k, payload, createdAt, n, -, commits⟩
  · exact .inl (same ▸ mem)
  · rw [commits.appended] at mem
    rcases List.mem_append.mp mem with before | added
    · exact .inl before
    · exact .inr ⟨k, _, n, commits.returned, rfl, List.mem_singleton.mp added⟩

/-- A step of the handlers is one of the storage or leaves it, and only a response answers a call. -/
theorem storage_moves (taken : handlerStep serialize s a = some s') :
    s'.storage = s.storage ∨ ∃ b, Storage.Step s.storage b s'.storage ∧
      ∀ k, b = .answer k → ∃ now, a = .respond k now := by
  have ofStorage : ∀ {b : Storage.Action} {s' : HandlerState}, (∀ k, b ≠ .answer k) →
      ((Storage.step s.storage b).map fun storage => { s with storage := storage }) = some s' →
        s'.storage = s.storage ∨ ∃ b, Storage.Step s.storage b s'.storage ∧
          ∀ k, b = .answer k → ∃ now, a = .respond k now := by
    intro b s' noAnswer moved
    obtain ⟨storage, step, rfl⟩ := Option.map_eq_some_iff.mp moved
    exact .inr ⟨b, step_eq_some.mp step, fun k same => absurd same (noAnswer k)⟩
  cases a with
  | receive k message socketId community now =>
    simp only [handlerStep] at taken
    split at taken
    · cases taken
    · split at taken <;> cases taken <;> exact .inl rfl
  | submit k createdAt =>
    simp only [handlerStep] at taken
    split at taken
    · cases taken
    · exact ofStorage (fun _ same => by cases same) taken
  | allocate k => exact ofStorage (fun _ same => by cases same) taken
  | insert k => exact ofStorage (fun _ same => by cases same) taken
  | respond k now =>
    simp only [handlerStep] at taken
    split at taken
    · cases taken
    · next incoming isIncoming =>
      obtain ⟨storage, step, rfl⟩ := Option.map_eq_some_iff.mp taken
      refine .inr ⟨.answer k, ?_, fun j same => ⟨now, by cases same; rfl⟩⟩
      cases storage.answers.head?.bind Prod.snd <;> exact step_eq_some.mp step

/-- A row that a step of the handlers adds has its handler under way. -/
theorem added_handlerStep (inv : HandlerInv serialize s) (taken : handlerStep serialize s a = some s')
    {row : LogEntrySync} (mem : row ∈ s'.storage.db.logEntrySync.rows) :
    row ∈ s.storage.db.logEntrySync.rows ∨ UnderWay s' row := by
  rcases storage_moves taken with same | ⟨b, step, -⟩
  · exact .inl (same ▸ mem)
  · exact added_underWay inv.storage step mem

/-- The response to a message whose entry is the row, with the position of the row. -/
structure RespondsWith (serialize : EncryptedAndSignedPayload → Bytes) (s s' : HandlerState)
    (incoming : Incoming) (row : LogEntrySync) : Prop where
  hash : row.id = incoming.message.payload.hash
  teamId : row.communityId = incoming.message.payload.teamId
  hashedDbId : row.hashedDbId = some incoming.message.payload.hashedDbId
  entry : row.entry = serialize incoming.message.payload.encEntry
  responds : ∃ storage k now, s' = s.respond storage k incoming now
    (some { receivedAtMs := row.receivedAt, syncSeq := toSyncSeq row.syncSeq })

/-- **What a step does to a row whose handler is under way**: it stays under way, or the step is the
response of its handler, and with the position of the row. -/
theorem underWay_step (inv : HandlerInv serialize s) (taken : handlerStep serialize s a = some s')
    {row : LogEntrySync} (underWay : UnderWay s row) :
    UnderWay s' row ∨ ∃ incoming, RespondsWith serialize s s' incoming row := by
  obtain ⟨k, call, n, isCall, returned, isRow⟩ := underWay
  rcases storage_moves taken with same | ⟨b, step, answers⟩
  · exact .inl ⟨k, call, n, by rw [same]; exact isCall, returned, isRow⟩
  · rcases returned_stays step isCall returned with stays | isAnswer
    · exact .inl ⟨k, call, n, stays, returned, isRow⟩
    · obtain ⟨now, rfl⟩ := answers k isAnswer
      rcases (handlerStep_cases inv taken).2 with ⟨-, noResponse⟩ | ⟨k', now', incoming, call', answer,
        isRespond, isCall', payload, result, moved⟩
      · exact absurd rfl (noResponse k now)
      · cases isRespond
        cases isCall.symm.trans isCall'
        rw [returned, addLogEntryResult, Option.some.injEq] at result
        subst result
        subst isRow
        refine .inr ⟨incoming, ?_, ?_, ?_, ?_, ⟨_, k, now, moved⟩⟩
        · exact congrArg LogSyncEntry.cid payload
        · exact congrArg LogSyncEntry.communityId payload
        · exact congrArg LogSyncEntry.hashedDbId payload
        · exact congrArg LogSyncEntry.entry payload

end

/-! ## The client -/

section
variable {serialize : EncryptedAndSignedPayload → Bytes} {filters : LogEntryPullPayload}
  {s s' : LiveState}

/-- **The response of a row's own handler reaches a client in the room**: as the row, or as an
acknowledgement if the message was its own. -/
theorem told_of_response {handlers : HandlerState} {incoming : Incoming} {row : LogEntrySync}
    (response : RespondsWith serialize s.handlers handlers incoming row)
    (isExact : JsNumber.Representable (seqOf row)) (ofTeam : row.communityId = filters.teamId)
    (joined : s.joined = true) :
    (∃ fanout ∈ emittedBy s.handlers handlers,
      s.hears filters.teamId fanout = true ∧ Carries serialize fanout.message row) ∨
    ∃ response, (s.socketId, response) ∈ handlers.acknowledged ∧ Acknowledges response row := by
  have syncSeq : toSyncSeq row.syncSeq = seqOf row := toSyncSeq_of_representable isExact
  obtain ⟨hash, teamId, hashedDbId, entry, ⟨storage, k, now, rfl⟩⟩ := response
  by_cases own : incoming.socketId = s.socketId
  · refine .inr ⟨_, List.mem_cons.mpr (.inl (by rw [← own])), ?_⟩
    exact ⟨rfl, teamId.symm, hash.symm, rfl, congrArg some syncSeq⟩
  · let fanout : Fanout :=
      { room := incoming.message.payload.teamId
        except := incoming.socketId
        message := fanoutMessage incoming.message
          { receivedAtMs := row.receivedAt, syncSeq := toSyncSeq row.syncSeq } }
    refine .inl ⟨fanout, ?_, ?_, ?_⟩
    · show fanout ∈ (fanout :: s.handlers.emitted).take
        (s.handlers.emitted.length + 1 - s.handlers.emitted.length)
      rw [Nat.add_sub_cancel_left]
      exact List.mem_cons_self
    · simp only [LiveState.hears, joined, Bool.true_and, Bool.and_eq_true, beq_iff_eq, bne_iff_ne]
      exact ⟨teamId.symm.trans ofTeam, own⟩
    · exact ⟨teamId.symm, hash.symm, hashedDbId.symm, entry.symm, rfl, congrArg some syncSeq⟩

/-- A step of the client leaves the storage. -/
theorem storage_of_client {r r' : ReaderState} {a : ReaderAction} (isClient : a.isClient = true)
    (taken : readerStep filters r a = some r') : r'.storage = r.storage := by
  cases a with
  | write a => cases isClient
  | request limit =>
    simp only [readerStep] at taken
    split at taken
    · cases taken
    · split at taken <;> cases taken
      rfl
  | page =>
    simp only [readerStep] at taken
    split at taken
    · cases taken
    · split at taken
      · cases taken
        rfl
      · split at taken <;> cases taken <;> rfl

/-- A request leaves the cursor of the client, and a page does not move it back. -/
theorem cursor_le {r r' : ReaderState} {a : ReaderAction} {start : Int} (isClient : a.isClient = true)
    (inv : ReaderInv (pulledLog r.storage.db filters) start r.reader)
    (exact_ : Exact (r.storage.db.rowsOf filters.teamId))
    (taken : readerStep filters r a = some r') : r.reader.cursor ≤ r'.reader.cursor := by
  cases a with
  | write a => cases isClient
  | request limit =>
    simp only [readerStep] at taken
    split at taken
    · cases taken
    · split at taken <;> cases taken
      exact le_refl _
  | page =>
    cases inFlight : r.reader.request with
    | none =>
      simp only [readerStep, inFlight] at taken
      cases taken
    | some request =>
      obtain ⟨limit, st⟩ := request
      cases read : Storage.getPaginatedLogEntriesBySyncSeq r.storage.db filters.teamId
          (pageFilter (requestPayload filters limit r.reader.cursor) st.nextStartSeq) with
      | none =>
        have isTeam : (requestPayload filters limit r.reader.cursor).teamId = filters.teamId := rfl
        simp only [readerStep, inFlight, isTeam, read] at taken
        cases taken
        exact le_refl _
      | some page =>
        obtain ⟨st', rows, rest, step⟩ := page_step inv exact_ inFlight read taken
        rcases step.outcome with ⟨-, answered⟩ | ⟨-, goesOn, -, -⟩
        · rw [answered, step.cursor_receive inv exact_]
          exact (inv.request limit st inFlight).low.trans step.le_point
        · rw [goesOn]

/-- After an answer without a next page no matching row is beyond the cursor. -/
theorem none_beyond_of_last {r r' : ReaderState} {start : Int}
    (inv : ReaderInv (pulledLog r.storage.db filters) start r.reader)
    (exact_ : Exact (r.storage.db.rowsOf filters.teamId)) (last : isLast filters r = true)
    (taken : readerStep filters r .page = some r') {row : LogEntrySync}
    (mem : row ∈ pulledLog r.storage.db filters) : seqOf row ≤ r'.reader.cursor := by
  obtain ⟨sent, answered, noNext⟩ := (Option.any_eq_true _ _).mp last
  obtain ⟨limit, st, st', rows, rest, step, rfl, received⟩ :=
    page_step_of_answer inv exact_ answered taken
  have isLeft : (response r.reader.cursor st').hasNextPage = !rest.isEmpty :=
    step.collected.hasNextPage
  rw [isLeft, Bool.not_not, List.isEmpty_iff] at noNext
  have cursor : r'.reader.cursor = r'.reader.point := by
    rw [received]
    rfl
  have none_ := step.after_point inv exact_
  rw [← cursor, noNext] at none_
  by_contra beyond
  have inAfter := Cursor.mem_after.mpr ⟨mem, not_le.mp beyond⟩
  rw [none_] at inAfter
  cases inAfter

/-- The invariant: a client that was told that no page is left is in the room, and was told every row
beyond its cursor. -/
structure LiveInv (serialize : EncryptedAndSignedPayload → Bytes) (filters : LogEntryPullPayload)
    (start : Int) (s : LiveState) : Prop where
  handlers : HandlerInv serialize s.handlers
  reader : Exact (s.handlers.storage.db.rowsOf filters.teamId) →
    ReaderInv (pulledLog s.handlers.storage.db filters) start s.reader
  joined : s.caughtUp = true → s.joined = true
  told : Exact (s.handlers.storage.db.rowsOf filters.teamId) → s.caughtUp = true →
    ∀ row ∈ pulledLog s.handlers.storage.db filters, s.reader.cursor < seqOf row →
      Told serialize s row

theorem liveInv_start (serialize : EncryptedAndSignedPayload → Bytes) (filters : LogEntryPullPayload)
    (db : Database) (start : Int) (socketId : SocketId) :
    LiveInv serialize filters start (.start db start socketId) where
  handlers := handlerInv_start serialize db
  reader := fun exact_ => (@readerInv_run filters db start [] _ rfl).2 exact_
  joined := fun caughtUp => by cases caughtUp
  told := fun _ caughtUp => by cases caughtUp

/-- A client without a request keeps what it has received. -/
theorem ReaderInv.drop {l : List LogEntrySync} {start : Int} {reader : Reader}
    (inv : ReaderInv l start reader) : ReaderInv l start { reader with request := none } :=
  ⟨inv.received, inv.low, inv.reached, fun _ _ none_ => by cases none_⟩

/-- A step of the handlers keeps the invariant. -/
theorem LiveInv.handle {start : Int} (inv : LiveInv serialize filters start s) {a : HandlerAction}
    (taken : liveStep serialize filters s (.handle a) = some s') :
    LiveInv serialize filters start s' := by
  obtain ⟨handlers, moved, rfl⟩ := Option.map_eq_some_iff.mp taken
  have handlersInv := (handlerStep_cases inv.handlers moved).1
  have exactBefore : Exact (handlers.storage.db.rowsOf filters.teamId) →
      Exact (s.handlers.storage.db.rowsOf filters.teamId) := by
    intro exact_
    rcases storage_moves moved with same | ⟨b, step, -⟩
    · exact same ▸ exact_
    · exact exact_of_prefix (rows_step inv.handlers.storage step) exact_
  refine ⟨handlersInv, fun exact_ => ?_, inv.joined, fun exact_ caughtUp row mem beyond => ?_⟩
  · have reader := inv.reader (exactBefore exact_)
    rcases storage_moves moved with same | ⟨b, step, -⟩
    · exact same ▸ reader
    · rcases log_step inv.handlers.storage step filters with same | ⟨row, grown, above⟩
      · show ReaderInv (pulledLog handlers.storage.db filters) start s.reader
        rw [same]
        exact reader
      · show ReaderInv (pulledLog handlers.storage.db filters) start s.reader
        rw [grown]
        exact reader.grown above
  · obtain ⟨inTable, selected⟩ := mem_log.mp mem
    have ofTeam := community_of_selects selected
    rcases added_handlerStep inv.handlers moved inTable with before | underWay
    · rcases inv.told (exactBefore exact_) caughtUp row (mem_log.mpr ⟨before, selected⟩) beyond with
        ⟨message, heard, carries⟩ | ⟨response, acknowledged, acks⟩ | underWay
      · exact .inl ⟨message, List.mem_append_right _ heard, carries⟩
      · exact .inr (.inl ⟨response, (sent_grows moved).2.subset acknowledged, acks⟩)
      · rcases underWay_step inv.handlers moved underWay with stays | ⟨incoming, response⟩
        · exact .inr (.inr stays)
        · have isExact := exact_ row (Database.mem_rowsOf.mpr ⟨inTable, ofTeam⟩)
          rcases told_of_response response isExact ofTeam (inv.joined caughtUp) with
            ⟨fanout, emitted, hears, carries⟩ | acknowledged
          · refine .inl ⟨fanout.message, List.mem_append_left _ (List.mem_map.mpr ⟨fanout, ?_, rfl⟩),
              carries⟩
            exact List.mem_filter.mpr ⟨emitted, hears⟩
          · exact .inr (.inl acknowledged)
    · exact .inr (.inr underWay)

/-- A step of the client keeps the invariant. -/
theorem LiveInv.ask {start : Int} (inv : LiveInv serialize filters start s) {a : ReaderAction}
    (isClient : a.isClient = true) {moved : ReaderState} (caughtUp : Bool)
    (taken : readerStep filters s.readerState a = some moved)
    (because : caughtUp = true → s.caughtUp = true ∨
      s.joined = true ∧ a = .page ∧ isLast filters s.readerState = true) :
    LiveInv serialize filters start { s with reader := moved.reader, caughtUp := caughtUp } := by
  have same := storage_of_client isClient taken
  refine ⟨inv.handlers, fun exact_ => ?_, fun caughtUp => ?_, fun exact_ caughtUp row mem beyond => ?_⟩
  · have reader := readerInv_step inv.handlers.storage taken exact_ (inv.reader exact_)
    rw [same] at reader
    exact reader
  · rcases because caughtUp with before | ⟨joined, -⟩
    · exact inv.joined before
    · exact joined
  · rcases because caughtUp with before | ⟨-, rfl, last⟩
    · have le := cursor_le (r := s.readerState) isClient (inv.reader exact_) exact_ taken
      exact inv.told exact_ before row mem (lt_of_le_of_lt le beyond)
    · exact absurd (none_beyond_of_last (r := s.readerState) (inv.reader exact_) exact_ last taken mem)
        (not_le.mpr beyond)

/-- **The step lemma.** -/
theorem liveInv_step {start : Int} (inv : LiveInv serialize filters start s) {a : LiveAction}
    (taken : liveStep serialize filters s a = some s') : LiveInv serialize filters start s' := by
  cases a with
  | handle a => exact inv.handle taken
  | connect socketId =>
    cases taken
    refine ⟨inv.handlers, fun exact_ => (inv.reader exact_).drop, ?_, ?_⟩
    · exact fun caughtUp => by cases caughtUp
    · exact fun _ caughtUp => by cases caughtUp
  | join =>
    cases taken
    exact ⟨inv.handlers, inv.reader, fun _ => rfl, inv.told⟩
  | request limit =>
    obtain ⟨moved, step, rfl⟩ := Option.map_eq_some_iff.mp taken
    exact inv.ask rfl s.caughtUp step .inl
  | page =>
    obtain ⟨moved, step, rfl⟩ := Option.map_eq_some_iff.mp taken
    refine inv.ask rfl _ step fun caughtUp => ?_
    rw [Bool.or_eq_true, Bool.and_eq_true] at caughtUp
    exact caughtUp.imp_right fun ⟨joined, last⟩ => ⟨joined, rfl, last⟩
  | refuse =>
    cases taken
    exact ⟨inv.handlers, fun exact_ => (inv.reader exact_).drop, inv.joined, inv.told⟩

end

/-- **Nothing is missed between pulling and hearing.** After any interleaving of the handlers of any
sockets with a client that pulls, joins the room, loses its socket and comes back: it has received every
matching row between its start and its cursor, in order and once; and if it was told on its socket, in
the room, that no page is left, then it was told every matching row beyond its cursor, each with its
content and its number, or will be by a handler that is under way. -/
theorem nothing_missed (serialize : EncryptedAndSignedPayload → Bytes) (filters : LogEntryPullPayload)
    (db : Database) (start : Int) (socketId : SocketId) (as : List LiveAction) (s : LiveState)
    (ran : run (liveStep serialize filters) (.start db start socketId) as = some s)
    (exact_ : Exact (s.handlers.storage.db.rowsOf filters.teamId)) :
    ExactlyOnce s.handlers.storage.db filters start s.reader ∧
      (s.caughtUp = true → ∀ row ∈ pulledLog s.handlers.storage.db filters,
        s.reader.cursor < seqOf row → Told serialize s row) := by
  have inv : LiveInv serialize filters start s :=
    run_keeps (fun _ _ _ inv taken => liveInv_step inv taken)
      (liveInv_start serialize filters db start socketId) ran
  exact ⟨(inv.reader exact_).received, inv.told exact_⟩

/-- A message for the team of the client, with this hash. -/
def messageNamed (hash : String) : LogEntrySyncMessage :=
  let message := messageFor "team" [1]
  { message with payload := { message.payload with hash := hash } }

/-- The client joins and pulls the first row while the second is being stored; the third is not emitted
yet. -/
def heardBetween : List LiveAction :=
  (handled 0 (messageNamed "a")).map .handle ++
  [.join, .request (some 1), .handle (.receive 1 (messageNamed "b") "socket" joined 0),
    .handle (.submit 1 0), .handle (.allocate 1), .page, .handle (.insert 1),
    .handle (.respond 1 0),
    .handle (.receive 2 (messageNamed "c") "socket" joined 0), .handle (.submit 2 0),
    .handle (.allocate 2), .handle (.insert 2)]

theorem nothing_missed_between :
    ∃ s, run (liveStep packContents wholeTeam) (.start .empty 0 "mine") heardBetween = some s ∧
      s.caughtUp = true ∧ s.reader.received.length = 1 ∧ s.heard.length = 1 ∧
      ∀ row ∈ pulledLog s.handlers.storage.db wholeTeam,
        s.reader.cursor < seqOf row → Told packContents s row :=
  ⟨_, rfl, by decide, by decide, by decide,
    (nothing_missed packContents wholeTeam .empty 0 "mine" heardBetween _ rfl (by decide)).2
      (by decide)⟩

end QuietStorage.Sync
