import QuietStorage.Sync.Agreement

/-!
# Sync.Resolve — starting the log from a timestamp

A client or a notification extension that only knows a time asks for the sequence number of that
time (`resolveSyncSeqForTimestamp`) and reads the log after it. That misses nothing newer when the
two orders of the log agree: rows stamped later have greater numbers (`resolves_of_ordered`).

A message is stamped when it is received and numbered when its statement runs, so two messages on
their way at once may be numbered against the order of their stamps. `CommitsInOrder` is the condition
that this does not happen; along it the orders agree in every state reached
(`resolve_skips_nothing`), and without it a newer entry lies before the resolved number
(`newer_entry_skipped`).
-/

set_option autoImplicit false

namespace QuietStorage.Sync

open Lib Storage

/-! ## A safe cut -/

/-- Whatever number a timestamp of a community resolves to, the rows received after the timestamp
lie beyond it, so the plain read from it has them. -/
def ResolvesSafely (db : Database) : Prop :=
  ∀ communityId timestamp n, resolveSyncSeqForTimestamp db communityId timestamp = some n →
    ∀ row ∈ db.rowsOf communityId, timestamp < row.receivedAt →
      n < seqOf row ∧ ∀ entries, getLogEntriesForCommunity db communityId n = some entries →
        entityToPayload row ∈ entries

/-- The numbers of a community follow the stamps, are positive, and are exact. -/
structure OrderedRows (db : Database) : Prop where
  ordered : ∀ a ∈ db.logEntrySync.rows, ∀ b ∈ db.logEntrySync.rows,
    a.communityId = b.communityId → seqOf a < seqOf b → a.receivedAt ≤ b.receivedAt
  positive : ∀ row ∈ db.logEntrySync.rows, 1 ≤ seqOf row
  isExact : ∀ row ∈ db.logEntrySync.rows, JsNumber.Representable (seqOf row)

/-- A number that a timestamp resolves to is that of a row received by then, or 0. -/
theorem resolve_spec {db : Database} {c : TeamId} {timestamp n : Int}
    (resolved : resolveSyncSeqForTimestamp db c timestamp = some n) :
    n = 0 ∨ ∃ row ∈ db.rowsOf c, row.receivedAt ≤ timestamp ∧ n = toSyncSeq row.syncSeq := by
  unfold resolveSyncSeqForTimestamp at resolved
  split at resolved
  · exact .inl (Option.some.inj resolved).symm
  · dsimp only at resolved
    split at resolved
    · split at resolved
      · next existing first =>
        have mem := (List.perm_insertionSort _ _).mem_iff.mp (List.mem_of_mem_head? first)
        obtain ⟨inTable, conditions⟩ := List.mem_filter.mp mem
        obtain ⟨community, received⟩ := Bool.and_eq_true_iff.mp conditions
        obtain ⟨startDateTime, isTime, received⟩ := (Option.any_eq_true _ _).mp received
        obtain ⟨-, rfl⟩ := toISO_eq_some.mp isTime
        refine .inr ⟨existing, ?_, of_decide_eq_true received, (Option.some.inj resolved).symm⟩
        exact Database.mem_rowsOf.mpr ⟨inTable, of_decide_eq_true community⟩
      · exact .inl (Option.some.inj resolved).symm
    · cases resolved

/-- **Where numbers follow stamps, a timestamp resolves to a safe cut.** -/
theorem resolves_of_ordered {db : Database} (rows : OrderedRows db) : ResolvesSafely db := by
  intro c timestamp n resolved row mem newer
  obtain ⟨inTable, community⟩ := Database.mem_rowsOf.mp mem
  have beyond : n < seqOf row := by
    rcases resolve_spec resolved with rfl | ⟨existing, existingMem, received, rfl⟩
    · have := rows.positive row inTable
      omega
    · obtain ⟨existingInTable, existingCommunity⟩ := Database.mem_rowsOf.mp existingMem
      rw [toSyncSeq_of_representable (rows.isExact existing existingInTable)]
      by_contra behind
      rcases eq_or_lt_of_le (le_of_not_gt behind) with same | before
      · -- one number, one row: it cannot be received both by the timestamp and after it
        have : row = existing := LogEntrySyncTable.eq_of_syncSeq inTable existingInTable
          (community.trans existingCommunity.symm) (Subtype.ext same)
        rw [this] at newer
        omega
      · have := rows.ordered row inTable existing existingInTable
          (community.trans existingCommunity.symm) before
        omega
  refine ⟨beyond, ?_⟩
  intro entries read
  unfold getLogEntriesForCommunity at read
  split at read
  · cases read
    refine List.mem_map_of_mem (mem_orderBySyncSeq.mpr (List.mem_filter.mpr ⟨inTable, ?_⟩))
    exact Bool.and_eq_true_iff.mpr ⟨decide_eq_true community, decide_eq_true beyond⟩
  · cases read

/-! ## Numbers that follow stamps -/

/-- The condition on a statement that is about to commit its row: it was stamped no earlier than the
rows its community has already, and its number is exact. -/
def CallInOrder (db : Database) (call : Call) : Prop :=
  match call.stage with
  | .allocated taken =>
    (∀ row ∈ db.logEntrySync.rows, row.id ≠ call.payload.cid) →
      (∀ row ∈ db.rowsOf call.payload.communityId, row.receivedAt ≤ call.payload.receivedAt) ∧
        JsNumber.Representable taken.syncSeq
  | _ => True

instance (db : Database) : ∀ call, Decidable (CallInOrder db call)
  | { payload, stage := .allocated taken, .. } =>
    inferInstanceAs (Decidable ((∀ row ∈ db.logEntrySync.rows, row.id ≠ payload.cid) →
      (∀ row ∈ db.rowsOf payload.communityId, row.receivedAt ≤ payload.receivedAt) ∧
        JsNumber.Representable taken.syncSeq))
  | { stage := .started _, .. } | { stage := .returned _, .. } | { stage := .failed _, .. } =>
    .isTrue trivial

/-- The condition on a step of the storage. -/
def CommitInOrder (s : Storage.State) : Storage.Action → Prop
  | .insert k => ∀ call ∈ s.calls k, CallInOrder s.db call
  | _ => True

instance (s : Storage.State) : ∀ a, Decidable (CommitInOrder s a)
  | .insert k => inferInstanceAs (Decidable (∀ call ∈ s.calls k, CallInOrder s.db call))
  | .submit .. | .allocate _ | .answer _ => .isTrue trivial

/-- The condition on a step of the handlers. -/
def CommitsInOrder (s : HandlerState) : HandlerAction → Prop
  | .insert k => CommitInOrder s.storage (.insert k)
  | _ => True

instance (s : HandlerState) : ∀ a, Decidable (CommitsInOrder s a)
  | .insert k => inferInstanceAs (Decidable (CommitInOrder s.storage (.insert k)))
  | .receive .. | .submit .. | .allocate _ | .respond .. => .isTrue trivial

/-- The rows are ordered, and the numbers taken by statements under way are positive. -/
structure OrderedInv (s : Storage.State) : Prop where
  rows : OrderedRows s.db
  taken : ∀ k call, s.calls k = some call → ∀ taken, call.stage = .allocated taken →
    1 ≤ (taken.syncSeq : Int)

/-- A row that is stamped no earlier than those of its community, with an exact number above theirs,
keeps numbers and stamps in one order. -/
theorem orderedRows_append {db db' : Database} {row : LogEntrySync} (ordered : OrderedRows db)
    (appended : db'.logEntrySync.rows = db.logEntrySync.rows ++ [row])
    (latest : ∀ r ∈ db.rowsOf row.communityId, r.receivedAt ≤ row.receivedAt)
    (above : ∀ r ∈ db.rowsOf row.communityId, (r.syncSeq : Int) < row.syncSeq)
    (positive : 1 ≤ (row.syncSeq : Int)) (isExact : JsNumber.Representable row.syncSeq) :
    OrderedRows db' := by
  have cases_ : ∀ r ∈ db'.logEntrySync.rows, r ∈ db.logEntrySync.rows ∨ r = row := by
    intro r mem
    rw [appended] at mem
    exact (List.mem_append.mp mem).imp id List.mem_singleton.mp
  refine ⟨?_, ?_, ?_⟩
  · intro a memA b memB community before
    rcases cases_ a memA with oldA | rfl <;> rcases cases_ b memB with oldB | rfl
    · exact ordered.ordered a oldA b oldB community before
    · exact latest a (Database.mem_rowsOf.mpr ⟨oldA, community⟩)
    · have := above b (Database.mem_rowsOf.mpr ⟨oldB, community.symm⟩)
      have before : (a.syncSeq : Int) < b.syncSeq := before
      omega
    · exact le_refl _
  · intro r mem
    rcases cases_ r mem with old | rfl
    · exact ordered.positive r old
    · exact positive
  · intro r mem
    rcases cases_ r mem with old | rfl
    · exact ordered.isExact r old
    · exact isExact

/-- The number that a statement takes over positive ones is positive. -/
theorem allocated_pos {db : Database} {k : CallId} {lock : TeamId → Option CallId} {call : Call}
    {r : JsNumber.Bigint} {al : Allocated} (ordered : OrderedRows db) (sound : CallInv db lock k call)
    (started : call.stage = .started r)
    (some_ : allocated (db.logEntrySyncCounter call.payload.communityId) r = some al) :
    1 ≤ (al.syncSeq : Int) := by
  simp only [CallInv, started] at sound
  obtain ⟨-, seqIs⟩ := allocated_spec some_
  have positive : 1 ≤ (r : Int) := by
    rcases sound.2 with one | ⟨row, mem, successor⟩
    · omega
    · have : 1 ≤ (row.syncSeq : Int) := ordered.positive row (Database.mem_rowsOf.mp mem).1
      omega
  cases counter : db.logEntrySyncCounter call.payload.communityId with
  | none =>
    rw [counter, Option.elim_none] at seqIs
    omega
  | some next =>
    rw [counter, Option.elim_some] at seqIs
    omega

/-- **The step lemma**: a step that meets the condition keeps numbers and stamps in one order. -/
theorem orderedInv_step {s s' : Storage.State} {a : Storage.Action} (inv : Storage.Inv s)
    (ordered : OrderedInv s) (taken : Storage.Step s a s') (meets : CommitInOrder s a) :
    OrderedInv s' := by
  have forall_calls := taken.forall_calls ordered.taken
  cases taken with
  | submitted k payload createdAt idle =>
    refine ⟨ordered.rows, forall_calls ?_⟩
    intro call underWay al isAllocated
    rw [Storage.Action.call, State.setCall_calls_self] at underWay
    cases underWay
    rcases startStatement_cases s.db payload createdAt with ⟨e, stage⟩ | ⟨r, stage, -⟩
    · cases stage.symm.trans isAllocated
    · cases stage.symm.trans isAllocated
  | exhausted k payload createdAt r started free none_ =>
    refine ⟨ordered.rows, forall_calls ?_⟩
    intro call underWay al isAllocated
    rw [Storage.Action.call, State.setCall_calls_self] at underWay
    cases underWay
    cases isAllocated
  | allocated k payload createdAt r next started free some_ =>
    refine ⟨ordered.rows, forall_calls ?_⟩
    intro call underWay al isAllocated
    rw [Storage.Action.call, State.setLock_calls, State.setCall_calls_self] at underWay
    cases underWay
    cases isAllocated
    exact allocated_pos ordered.rows (inv k _ started) rfl some_
  | refused k payload createdAt next e holding violates =>
    refine ⟨ordered.rows, forall_calls ?_⟩
    intro call underWay al isAllocated
    rw [Storage.Action.call, State.setLock_calls, State.setCall_calls_self] at underWay
    cases underWay
    cases isAllocated
  | committed k payload createdAt next table holding inserts =>
    obtain ⟨-, -, above⟩ := inv k _ holding
    obtain ⟨appended, free⟩ := LogEntrySyncTable.insert_eq_ok inserts
    obtain ⟨latest, isExact⟩ := meets _ holding free
    have positive := ordered.taken k _ holding next rfl
    refine ⟨orderedRows_append ordered.rows appended latest above positive isExact, forall_calls ?_⟩
    intro call underWay al isAllocated
    rw [Storage.Action.call, State.commit_calls, State.setLock_calls, State.setCall_calls_self]
      at underWay
    cases underWay
    cases isAllocated
  | answered k ended answer isEnded result =>
    refine ⟨ordered.rows, forall_calls ?_⟩
    intro call underWay
    rw [Storage.Action.call, State.addAnswer_calls, State.setCall_calls_self] at underWay
    cases underWay

/-- The step that a step of the handlers is for the storage; a statement is run only by `insert`. -/
theorem storage_of_handlerStep {serialize : EncryptedAndSignedPayload → Bytes}
    {s s' : HandlerState} {a : HandlerAction} (taken : handlerStep serialize s a = some s') :
    s'.storage = s.storage ∨ ∃ b, Storage.Step s.storage b s'.storage ∧
      ∀ k, b = .insert k → a = .insert k := by
  cases a with
  | receive k message socketId community now =>
    simp only [handlerStep] at taken
    split at taken
    · cases taken
    · split at taken <;> cases taken <;> exact .inl rfl
  | submit k createdAt =>
    simp only [handlerStep] at taken
    split at taken
    · cases taken
    · obtain ⟨storage, moved, rfl⟩ := Option.map_eq_some_iff.mp taken
      exact .inr ⟨_, step_eq_some.mp moved, fun _ other => by cases other⟩
  | allocate k =>
    obtain ⟨storage, moved, rfl⟩ := Option.map_eq_some_iff.mp taken
    exact .inr ⟨_, step_eq_some.mp moved, fun _ other => by cases other⟩
  | insert k =>
    obtain ⟨storage, moved, rfl⟩ := Option.map_eq_some_iff.mp taken
    exact .inr ⟨_, step_eq_some.mp moved, fun _ same => by cases same; rfl⟩
  | respond k now =>
    simp only [handlerStep] at taken
    split at taken
    · cases taken
    · next incoming isIncoming =>
      obtain ⟨storage, moved, rfl⟩ := Option.map_eq_some_iff.mp taken
      refine .inr ⟨.answer k, ?_, fun _ other => by cases other⟩
      have : (s.respond storage k incoming now (storage.answers.head?.bind Prod.snd)).storage =
          storage := by
        cases storage.answers.head?.bind Prod.snd <;> rfl
      rw [this]
      exact step_eq_some.mp moved

/-- A step of the handlers meets the condition on commits if its step of the storage does. -/
theorem commitInOrder_of_handlerStep {s : HandlerState} {a : HandlerAction} {b : Storage.Action}
    (same : ∀ k, b = .insert k → a = .insert k) (meets : CommitsInOrder s a) :
    CommitInOrder s.storage b := by
  cases b with
  | insert k =>
    cases same k rfl
    exact meets
  | submit | allocate | answer => trivial

/-- **Resolving a timestamp skips nothing newer**, in every state of every run whose messages commit
in the order of their stamps, from rows in that order. -/
theorem resolve_skips_nothing (serialize : EncryptedAndSignedPayload → Bytes) (db : Database)
    (rows : OrderedRows db) (as : List HandlerAction) (s : HandlerState)
    (along : Along (handlerStep serialize) CommitsInOrder (.start db) as)
    (ran : run (handlerStep serialize) (.start db) as = some s) :
    ResolvesSafely s.storage.db := by
  have started : Storage.Inv (HandlerState.start db).storage ∧
      OrderedInv (HandlerState.start db).storage :=
    ⟨inv_start db, rows, fun _ _ none_ => by cases none_⟩
  obtain ⟨-, ordered⟩ := run_keeps_along
    (P := fun s : HandlerState => Storage.Inv s.storage ∧ OrderedInv s.storage)
    (fun s a s' holds meets taken => by
      obtain ⟨inv, ordered⟩ := holds
      rcases storage_of_handlerStep taken with same | ⟨b, moved, inserts⟩
      · rw [same]
        exact ⟨inv, ordered⟩
      · exact ⟨inv_step inv moved,
          orderedInv_step inv ordered moved (commitInOrder_of_handlerStep inserts meets)⟩)
    started along ran
  exact resolves_of_ordered ordered.rows

/-- A message of the team `"one"` with another hash. -/
def messageWithHash (hash : String) : LogEntrySyncMessage :=
  { messageFor "one" [2] with payload := { (messageFor "one" [2]).payload with hash := hash } }

/-- Two messages of one team, stamped at 100 and 200. -/
def twoStamps : List HandlerAction :=
  [.receive 0 (messageFor "one" [1]) "socket" joined 100,
    .receive 1 (messageWithHash "b") "socket" joined 200]

/-- Each message is numbered in the order it was stamped. -/
def numberedInOrder : List HandlerAction :=
  twoStamps ++ [.submit 0 0, .submit 1 0, .allocate 0, .insert 0, .allocate 1, .insert 1]

theorem resolve_skips_nothing_inOrder :
    ∃ s, run (handlerStep packContents) (.start .empty) numberedInOrder = some s ∧
      ResolvesSafely s.storage.db := by
  refine ⟨_, rfl, ?_⟩
  refine resolve_skips_nothing packContents .empty ?_ numberedInOrder _ ?_ rfl
  · exact ⟨by decide, by decide, by decide⟩
  · decide

/-- The message that was stamped first is numbered last. -/
def numberedAgainstStamps : List HandlerAction :=
  twoStamps ++ [.submit 1 0, .allocate 1, .insert 1, .submit 0 0, .allocate 0, .insert 0]

/-- **A newer entry can be skipped**: the time 100 resolves to the number 2, and the entry received
at 200 has the number 1. -/
theorem newer_entry_skipped :
    ∃ s, run (handlerStep packContents) (.start .empty) numberedAgainstStamps = some s ∧
      ¬ ResolvesSafely s.storage.db := by
  refine ⟨_, rfl, ?_⟩
  intro safely
  obtain ⟨beyond, -⟩ := safely "one" 100 2 (by decide)
    (rowOf (Incoming.dbPayload packContents
      { message := messageWithHash "b", socketId := "socket", receivedAt := 200 }) 0 ⟨1, by decide⟩)
    (by decide) (by decide)
  exact absurd beyond (by decide)

end QuietStorage.Sync
