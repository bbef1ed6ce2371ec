import QuietStorage.Storage.AddLogEntry

/-!
# Storage.Allocation — sequence numbers under concurrent writers

What every interleaving of `addLogEntry` statements keeps, from any database:

* a number that a statement holds lies beyond every committed row of its community, because it holds
  the counter's lock from the moment it takes the number to its commit;
* a statement whose snapshot is stale is covered by the counter: whoever committed since left the
  counter beyond its own row (`Covers`). So the greater of `recovered` and the counter lies beyond
  every committed row, however old `recovered` is.

From this: the index `entries_by_syncSeq_idx` never refuses a row, rows are committed in the order of
their numbers (`committed_above`), a statement that does not commit changes nothing (`db_step`), and
it fails for a used id, for a value that does not fit its column, or at the end of the range of
`bigint` (`failed_because`). A community whose rows are `1..n` keeps rows `1..m` (`contiguous_run`).

**What it does not establish**: that a statement ever ends. A call may wait for a lock forever if its
holder never moves.
-/

set_option autoImplicit false

namespace QuietStorage.Storage

open Lib Lib.JsNumber

/-! ## The invariant -/

/-- The rows of the community lie below `recovered`, or below its counter. -/
def Covers (db : Database) (communityId : TeamId) (recovered : Bigint) : Prop :=
  (∀ row ∈ db.rowsOf communityId, (row.syncSeq : Int) < recovered) ∨
    ∃ next, db.logEntrySyncCounter communityId = some next ∧
      ∀ row ∈ db.rowsOf communityId, (row.syncSeq : Int) < next

/-- What holds of a call under way, by its stage. -/
def CallInv (db : Database) (counterLock : TeamId → Option CallId) (k : CallId) (call : Call) :
    Prop :=
  match call.stage with
  | .started recovered =>
    Covers db call.payload.communityId recovered ∧
      ((recovered : Int) = 1 ∨
        ∃ row ∈ db.rowsOf call.payload.communityId, (recovered : Int) = row.syncSeq + 1)
  | .allocated taken =>
    counterLock call.payload.communityId = some k ∧
      (taken.nextSyncSeq : Int) = taken.syncSeq + 1 ∧
      ∀ row ∈ db.rowsOf call.payload.communityId, (row.syncSeq : Int) < taken.syncSeq
  | .returned syncSeq => rowOf call.payload call.createdAt syncSeq ∈ db.logEntrySync.rows
  | .failed _ => True

/-- The invariant: each call under way is sound. -/
def Inv (s : State) : Prop :=
  ∀ k call, s.calls k = some call → CallInv s.db s.counterLock k call

theorem inv_start (db : Database) : Inv (State.start db) := by
  intro k call underWay
  cases underWay

/-! ## What a commit does to the rows of a community -/

/-- The rows of a community after a row is appended to the table. -/
theorem mem_rowsOf_append {db db' : Database} {row : LogEntrySync}
    (appended : db'.logEntrySync.rows = db.logEntrySync.rows ++ [row]) {c : TeamId}
    {r : LogEntrySync} :
    r ∈ db'.rowsOf c ↔ r ∈ db.rowsOf c ∨ (r = row ∧ row.communityId = c) := by
  rw [Database.mem_rowsOf, Database.mem_rowsOf, appended, List.mem_append, List.mem_singleton]
  constructor
  · intro ⟨mem, community⟩
    rcases mem with old | rfl
    · exact .inl ⟨old, community⟩
    · exact .inr ⟨rfl, community⟩
  · intro mem
    rcases mem with ⟨old, community⟩ | ⟨rfl, community⟩
    · exact ⟨.inl old, community⟩
    · exact ⟨.inr rfl, community⟩

/-- Another community keeps its rows. -/
theorem rowsOf_append_of_ne {db db' : Database} (row : LogEntrySync)
    (appended : db'.logEntrySync.rows = db.logEntrySync.rows ++ [row]) {c : TeamId}
    (other : row.communityId ≠ c) : db'.rowsOf c = db.rowsOf c := by
  simp only [Database.rowsOf, appended, List.filter_append, List.filter_cons, other, decide_false,
    Bool.false_eq_true, if_false, List.filter_nil, List.append_nil]

/-- A commit keeps what holds of a call that does not hold the lock of the community. -/
theorem callInv_commit {s : State} {table : LogEntrySyncTable} (row : LogEntrySync) {next : Bigint}
    {lock : TeamId → Option CallId} {j : CallId} {call : Call}
    (appended : table.rows = s.db.logEntrySync.rows ++ [row])
    (above : ∀ r ∈ s.db.rowsOf row.communityId, (r.syncSeq : Int) < row.syncSeq)
    (counter : (next : Int) = row.syncSeq + 1)
    (unlocked : lock row.communityId ≠ some j)
    (sound : CallInv s.db lock j call) :
    CallInv (s.commit row.communityId table next).db lock j call := by
  have grown : ((s.commit row.communityId table next).db).logEntrySync.rows =
      s.db.logEntrySync.rows ++ [row] := appended
  unfold CallInv at sound ⊢
  cases stage : call.stage with
  | started recovered =>
    simp only [stage] at sound ⊢
    obtain ⟨covers, origin⟩ := sound
    refine ⟨?_, origin.imp id ?_⟩
    · by_cases same : row.communityId = call.payload.communityId
      · -- the commit left the counter beyond every row, its own included
        refine .inr ⟨next, ?_, fun r mem => ?_⟩
        · rw [← same, State.commit_counter_self]
        · rcases (mem_rowsOf_append grown).mp mem with old | ⟨rfl, _⟩
          · have := above r (same ▸ old)
            omega
          · omega
      · unfold Covers
        rw [rowsOf_append_of_ne row grown same,
          State.commit_counter_of_ne _ _ _ (fun h => same h.symm)]
        exact covers
    · intro ⟨r, mem, successor⟩
      exact ⟨r, (mem_rowsOf_append grown).mpr (.inl mem), successor⟩
  | allocated taken =>
    simp only [stage] at sound ⊢
    obtain ⟨held, nextIs, below⟩ := sound
    have other : row.communityId ≠ call.payload.communityId := fun same => unlocked (same ▸ held)
    refine ⟨held, nextIs, fun r mem => below r ?_⟩
    rwa [rowsOf_append_of_ne row grown other] at mem
  | returned syncSeq =>
    simp only [stage] at sound ⊢
    rw [grown]
    exact List.mem_append_left _ sound
  | failed e => trivial

/-- A change of a lock that a call does not hold keeps what holds of the call. -/
theorem callInv_lock {db : Database} {lock : TeamId → Option CallId} {c : TeamId}
    (holder : Option CallId) {j : CallId} {call : Call} (unlocked : lock c ≠ some j)
    (sound : CallInv db lock j call) :
    CallInv db (Function.update lock c holder) j call := by
  unfold CallInv at sound ⊢
  cases stage : call.stage with
  | started recovered => simpa only [stage] using sound
  | allocated taken =>
    simp only [stage] at sound ⊢
    have other : call.payload.communityId ≠ c := fun same => unlocked (same ▸ sound.1)
    rw [Function.update_of_ne other]
    exact sound
  | returned syncSeq => simpa only [stage] using sound
  | failed e => trivial

/-! ## One step -/

/-- A statement that has just started has failed, or has `recovered` from its snapshot. -/
theorem startStatement_cases (db : Database) (payload : LogSyncEntry) (createdAt : Int) :
    (∃ e, startStatement db payload createdAt = .failed e) ∨
      ∃ r, startStatement db payload createdAt = .started r ∧
        recovered db payload.communityId = some r := by
  unfold startStatement
  split
  · exact .inl ⟨_, rfl⟩
  · split
    · exact .inl ⟨_, rfl⟩
    · next r computed => exact .inr ⟨r, rfl, computed⟩

/-- A statement's snapshot covers the rows it read. -/
theorem callInv_start (db : Database) (lock : TeamId → Option CallId) (k : CallId)
    (payload : LogSyncEntry) (createdAt : Int) :
    CallInv db lock k { payload, createdAt, stage := startStatement db payload createdAt } := by
  rcases startStatement_cases db payload createdAt with ⟨e, stage⟩ | ⟨r, stage, computed⟩
  · rw [stage]
    trivial
  · rw [stage]
    obtain ⟨beyond, origin⟩ := recovered_spec computed
    exact ⟨.inl beyond, origin.imp And.right id⟩

/-- **The number taken lies beyond every committed row**, although `recovered` may be stale. -/
theorem allocated_above {db : Database} {c : TeamId} {r : Bigint} {taken : Allocated}
    (covers : Covers db c r) (some_ : allocated (db.logEntrySyncCounter c) r = some taken) :
    ∀ row ∈ db.rowsOf c, (row.syncSeq : Int) < taken.syncSeq := by
  obtain ⟨-, seqIs⟩ := allocated_spec some_
  intro row mem
  rcases covers with beyond | ⟨next, counter, beyond⟩
  · have below := beyond row mem
    cases counter : db.logEntrySyncCounter c with
    | none => rw [counter, Option.elim_none] at seqIs; omega
    | some next => rw [counter, Option.elim_some] at seqIs; omega
  · have below := beyond row mem
    rw [counter, Option.elim_some] at seqIs
    omega

/-- What holds of the call that moved. -/
theorem callInv_moved {s s' : State} {a : Action} (inv : Inv s) (taken : Step s a s') {call : Call}
    (underWay : s'.calls a.call = some call) : CallInv s'.db s'.counterLock a.call call := by
  cases taken with
  | submitted k payload createdAt idle =>
    rw [Action.call, State.setCall_calls_self] at underWay
    cases underWay
    exact callInv_start s.db s.counterLock k payload createdAt
  | exhausted k payload createdAt recovered started free none_ =>
    rw [Action.call, State.setCall_calls_self] at underWay
    cases underWay
    trivial
  | allocated k payload createdAt recovered taken started free some_ =>
    rw [Action.call, State.setLock_calls, State.setCall_calls_self] at underWay
    cases underWay
    obtain ⟨covers, -⟩ := inv k _ started
    refine ⟨State.setLock_counterLock_self _ _ _, (allocated_spec some_).1, ?_⟩
    exact allocated_above covers some_
  | refused k payload createdAt taken e holding violates =>
    rw [Action.call, State.setLock_calls, State.setCall_calls_self] at underWay
    cases underWay
    trivial
  | committed k payload createdAt taken table holding inserts =>
    obtain ⟨appended, -⟩ := LogEntrySyncTable.insert_eq_ok inserts
    rw [Action.call, State.commit_calls, State.setLock_calls, State.setCall_calls_self] at underWay
    cases underWay
    show rowOf payload createdAt taken.syncSeq ∈ table.rows
    rw [appended]
    exact List.mem_append_right _ (List.mem_singleton_self _)
  | answered k ended answer isEnded result =>
    rw [Action.call, State.addAnswer_calls, State.setCall_calls_self] at underWay
    cases underWay

/-- What held of another call still holds: it does not have the lock that the step is about. -/
theorem callInv_other {s s' : State} {a : Action} (inv : Inv s) (taken : Step s a s') {j : CallId}
    (other : j ≠ a.call) {call : Call} (underWay : s.calls j = some call) :
    CallInv s'.db s'.counterLock j call := by
  have sound := inv j call underWay
  cases taken with
  | submitted k payload createdAt idle => exact sound
  | exhausted k payload createdAt recovered started free none_ => exact sound
  | allocated k payload createdAt recovered taken started free some_ =>
    refine callInv_lock _ ?_ sound
    show s.counterLock payload.communityId ≠ some j
    rw [free]
    exact (Option.some_ne_none j).symm
  | refused k payload createdAt taken e holding violates =>
    obtain ⟨held, -⟩ := inv k _ holding
    refine callInv_lock _ ?_ sound
    show s.counterLock payload.communityId ≠ some j
    rw [held]
    exact fun holder => other (Option.some.inj holder).symm
  | committed k payload createdAt taken table holding inserts =>
    obtain ⟨held, nextIs, above⟩ := inv k _ holding
    obtain ⟨appended, -⟩ := LogEntrySyncTable.insert_eq_ok inserts
    have unlocked : s.counterLock payload.communityId ≠ some j := by
      rw [held]
      exact fun holder => other (Option.some.inj holder).symm
    have released := callInv_lock none unlocked sound
    refine callInv_commit (s := (s.setCall k _).setLock payload.communityId none)
      (rowOf payload createdAt taken.syncSeq) appended above nextIs ?_ released
    show (Function.update s.counterLock payload.communityId none) payload.communityId ≠ some j
    rw [Function.update_self]
    exact (Option.some_ne_none j).symm
  | answered k ended answer isEnded result => exact sound

/-- **The step lemma.** -/
theorem inv_step {s s' : State} {a : Action} (inv : Inv s) (taken : Step s a s') : Inv s' := by
  intro j call underWay
  by_cases moved : j = a.call
  · subst moved
    exact callInv_moved inv taken underWay
  · exact callInv_other inv taken moved (taken.calls_of_ne moved ▸ underWay)

/-- **The run lemma**: the invariant holds after any interleaving from any database. -/
theorem inv_run {db : Database} {as : List Action} {s : State}
    (ran : run step (State.start db) as = some s) : Inv s :=
  run_keeps (fun _ _ _ inv taken => inv_step inv (step_eq_some.mp taken)) (inv_start db) ran

/-! ## What a step changes -/

/-- The index on sequence numbers refuses no row: a refusal is the id's. -/
theorem refused_for_id {s : State} (inv : Inv s) {k : CallId} {payload : LogSyncEntry}
    {createdAt : Int} {taken : Allocated} {e : PgError}
    (holding : s.calls k = some { payload, createdAt, stage := .allocated taken })
    (violates : s.db.logEntrySync.insert (rowOf payload createdAt taken.syncSeq) = .error e) :
    e = .uniqueViolation .log_entry_sync_pkey ∧
      ∃ row ∈ s.db.logEntrySync.rows, row.id = payload.cid := by
  obtain ⟨-, -, above⟩ := inv k _ holding
  rcases LogEntrySyncTable.insert_eq_error violates with forId | ⟨-, row, mem, community, seq⟩
  · exact forId
  · have below := above row (Database.mem_rowsOf.mpr ⟨mem, community⟩)
    have : (row.syncSeq : Int) = taken.syncSeq := congrArg Subtype.val seq
    omega

/-- A step that changes the database is the commit of one statement: it appends the row of a call
that is then returned its number, beyond every row of the community, and writes the counter of that
community only. -/
structure Commits (s s' : State) (k : CallId) (payload : LogSyncEntry) (createdAt : Int)
    (syncSeq : Bigint) : Prop where
  returned : s'.calls k = some { payload, createdAt, stage := .returned syncSeq }
  appended : s'.db.logEntrySync.rows =
    s.db.logEntrySync.rows ++ [rowOf payload createdAt syncSeq]
  above : ∀ row ∈ s.db.rowsOf payload.communityId, (row.syncSeq : Int) < syncSeq
  counter : ∃ next, s'.db.logEntrySyncCounter payload.communityId = some next ∧
    (next : Int) = syncSeq + 1
  otherCounters : ∀ c, c ≠ payload.communityId →
    s'.db.logEntrySyncCounter c = s.db.logEntrySyncCounter c

/-- **Nothing but a commit changes the database.** -/
theorem db_step {s s' : State} {a : Action} (inv : Inv s) (taken : Step s a s') :
    s'.db = s.db ∨ ∃ k payload createdAt syncSeq,
      a = .insert k ∧ Commits s s' k payload createdAt syncSeq := by
  cases taken with
  | committed k payload createdAt al table holding inserts =>
    obtain ⟨-, nextIs, above⟩ := inv k _ holding
    obtain ⟨appended, -⟩ := LogEntrySyncTable.insert_eq_ok inserts
    refine .inr ⟨k, payload, createdAt, al.syncSeq, rfl, ?_, appended, above, ?_, ?_⟩
    · rw [State.commit_calls, State.setLock_calls, State.setCall_calls_self]
    · exact ⟨al.nextSyncSeq, State.commit_counter_self _ _ _ _, nextIs⟩
    · intro c other
      rw [State.commit_counter_of_ne _ _ _ other, State.setLock_db, State.setCall_db]
  | submitted => exact .inl rfl
  | exhausted => exact .inl rfl
  | allocated => exact .inl rfl
  | refused => exact .inl rfl
  | answered => exact .inl rfl

/-- Rows are never removed or changed. -/
theorem rows_step {s s' : State} {a : Action} (inv : Inv s) (taken : Step s a s') :
    s.db.logEntrySync.rows <+: s'.db.logEntrySync.rows := by
  rcases db_step inv taken with same | ⟨k, payload, createdAt, syncSeq, -, commits⟩
  · rw [same]
  · rw [commits.appended]
    exact List.prefix_append _ _

/-- The community has no number left: its last row or its counter is at the end of `bigint`. -/
def Exhausted (db : Database) (communityId : TeamId) : Prop :=
  (∃ row ∈ db.rowsOf communityId, bigintMax - 1 ≤ (row.syncSeq : Int)) ∨
    ∃ next, db.logEntrySyncCounter communityId = some next ∧ bigintMax ≤ (next : Int)

/-- Why a statement can fail in a given database. -/
def Refusable (db : Database) (payload : LogSyncEntry) (createdAt : Int) : Prop :=
  (∃ row ∈ db.logEntrySync.rows, row.id = payload.cid) ∨
    ¬ Fits payload createdAt ∨ Exhausted db payload.communityId

/-- A statement that fails at once does so for a value or for the end of the range. -/
theorem startStatement_failed {db : Database} {payload : LogSyncEntry} {createdAt : Int}
    {e : PgError} (failed : startStatement db payload createdAt = .failed e) :
    ¬ Fits payload createdAt ∨ Exhausted db payload.communityId := by
  unfold startStatement at failed
  split at failed
  · next converted =>
    refine .inl fun fits => ?_
    rw [columns_eq_ok.mpr ⟨fits, rfl⟩] at converted
    cases converted
  · split at failed
    · next none_ =>
      obtain ⟨row, mem, greatest⟩ := recovered_eq_none none_
      exact .inr (.inl ⟨row, mem, by omega⟩)
    · cases failed

/-- A value that does not fit fails the statement at once. -/
theorem startStatement_of_not_fits (db : Database) {payload : LogSyncEntry} {createdAt : Int}
    (unfit : ¬ Fits payload createdAt) : ∃ e, startStatement db payload createdAt = .failed e := by
  unfold startStatement
  cases converted : columns payload createdAt with
  | error e => exact ⟨e, rfl⟩
  | ok row => exact absurd (columns_eq_ok.mp converted).1 unfit

/-- **A step that fails a statement has one of the three reasons.** -/
theorem failed_because {s s' : State} {a : Action} (inv : Inv s) (taken : Step s a s')
    {k : CallId} {payload : LogSyncEntry} {createdAt : Int} {e : PgError}
    (failed : s'.calls k = some { payload, createdAt, stage := .failed e })
    (fresh : s.calls k ≠ some { payload, createdAt, stage := .failed e }) :
    Refusable s.db payload createdAt := by
  have moved : k = a.call := by
    by_contra other
    exact fresh (taken.calls_of_ne other ▸ failed)
  subst moved
  cases taken with
  | submitted k p t idle =>
    rw [Action.call, State.setCall_calls_self] at failed
    obtain ⟨rfl, rfl, stage⟩ := Call.mk.inj (Option.some.inj failed)
    exact .inr (startStatement_failed stage)
  | exhausted k p t r started free none_ =>
    rw [Action.call, State.setCall_calls_self] at failed
    cases failed
    obtain ⟨-, origin⟩ := inv k _ started
    refine .inr (.inr ?_)
    rcases allocated_eq_none none_ with greatest | ⟨next, counter, greatest⟩
    · rcases origin with one | ⟨row, mem, successor⟩
      · exact absurd greatest (by rw [one]; decide)
      · exact .inl ⟨row, mem, by omega⟩
    · exact .inr ⟨next, counter, greatest⟩
  | allocated k p t r al started free some_ =>
    rw [Action.call, State.setLock_calls, State.setCall_calls_self] at failed
    cases failed
  | refused k p t al e' holding violates =>
    rw [Action.call, State.setLock_calls, State.setCall_calls_self] at failed
    cases failed
    exact .inl (refused_for_id inv holding violates).2
  | committed k p t al table holding inserts =>
    rw [Action.call, State.commit_calls, State.setLock_calls, State.setCall_calls_self] at failed
    cases failed
  | answered k ended answer isEnded result =>
    rw [Action.call, State.addAnswer_calls, State.setCall_calls_self] at failed
    cases failed

/-! ## Contiguity -/

/-- The sequence numbers of the community are exactly `1..n`. -/
def RowsExactly (db : Database) (communityId : TeamId) (n : Nat) : Prop :=
  ∀ i : Int, (∃ row ∈ db.rowsOf communityId, (row.syncSeq : Int) = i) ↔ 1 ≤ i ∧ i ≤ n

/-- A call of a community with rows `1..m` is about to take, or holds, the number after them. -/
def CallContiguous (communityId : TeamId) (m : Nat) (call : Call) : Prop :=
  call.payload.communityId = communityId →
    match call.stage with
    | .started recovered => (recovered : Int) ≤ m + 1
    | .allocated taken => (taken.syncSeq : Int) = m + 1
    | _ => True

/-- The community has rows `1..m`, and neither its counter nor a call is ahead of them. -/
structure Contiguous (s : State) (communityId : TeamId) (m : Nat) : Prop where
  rows : RowsExactly s.db communityId m
  counter : ∀ next, s.db.logEntrySyncCounter communityId = some next → (next : Int) ≤ m + 1
  calls : ∀ k call, s.calls k = some call → CallContiguous communityId m call

/-- What holds of every call and of the call that moved holds of every call after the step. -/
theorem Step.forall_calls {s s' : State} {a : Action} (taken : Step s a s') {P : Call → Prop}
    (old : ∀ k call, s.calls k = some call → P call)
    (moved : ∀ call, s'.calls a.call = some call → P call) :
    ∀ k call, s'.calls k = some call → P call := by
  intro k call underWay
  by_cases same : k = a.call
  · exact moved call (same ▸ underWay)
  · exact old k call (taken.calls_of_ne same ▸ underWay)

/-- A snapshot of rows `1..m` recovers at most `m + 1`. -/
theorem callContiguous_start {db : Database} {c : TeamId} {m : Nat} (rows : RowsExactly db c m)
    (payload : LogSyncEntry) (createdAt : Int) :
    CallContiguous c m { payload, createdAt, stage := startStatement db payload createdAt } := by
  intro community
  rcases startStatement_cases db payload createdAt with ⟨e, stage⟩ | ⟨r, stage, computed⟩
  · rw [stage]
    trivial
  · rw [stage]
    show (r : Int) ≤ m + 1
    rcases (recovered_spec computed).2 with ⟨-, one⟩ | ⟨row, mem, successor⟩
    · omega
    · have := ((rows row.syncSeq).mp ⟨row, community ▸ mem, rfl⟩).2
      omega

/-- The number taken from rows `1..m` is `m + 1`. -/
theorem allocated_contiguous {s : State} {c : TeamId} {m : Nat} (contiguous : Contiguous s c m)
    {r : Bigint} {taken : Allocated} (some_ : allocated (s.db.logEntrySyncCounter c) r = some taken)
    (covers : Covers s.db c r)
    (origin : (r : Int) = 1 ∨ ∃ row ∈ s.db.rowsOf c, (r : Int) = row.syncSeq + 1)
    (atMost : (r : Int) ≤ m + 1) : (taken.syncSeq : Int) = m + 1 := by
  obtain ⟨-, seqIs⟩ := allocated_spec some_
  have above := allocated_above covers some_
  have positive : 1 ≤ (r : Int) := by
    rcases origin with one | ⟨row, mem, successor⟩
    · omega
    · have := ((contiguous.rows row.syncSeq).mp ⟨row, mem, rfl⟩).1
      omega
  -- the last row, if there is one, is below the number taken
  have low : (m : Int) < taken.syncSeq := by
    cases m with
    | zero =>
      cases counter : s.db.logEntrySyncCounter c with
      | none => rw [counter, Option.elim_none] at seqIs; omega
      | some next => rw [counter, Option.elim_some] at seqIs; omega
    | succ m =>
      obtain ⟨row, mem, isLast⟩ := (contiguous.rows ((m + 1 : Nat) : Int)).mpr ⟨by omega, Int.le_refl _⟩
      have := above row mem
      omega
  cases counter : s.db.logEntrySyncCounter c with
  | none => rw [counter, Option.elim_none] at seqIs; omega
  | some next =>
    rw [counter, Option.elim_some] at seqIs
    have := contiguous.counter next counter
    omega

/-- Rows `1..m` and the row `m + 1` are rows `1..m + 1`. -/
theorem rowsExactly_append {db db' : Database} (row : LogEntrySync) {m : Nat}
    (rows : RowsExactly db row.communityId m)
    (appended : db'.logEntrySync.rows = db.logEntrySync.rows ++ [row])
    (next : (row.syncSeq : Int) = m + 1) : RowsExactly db' row.communityId (m + 1) := by
  intro i
  constructor
  · intro ⟨r, mem, isI⟩
    rcases (mem_rowsOf_append appended).mp mem with old | ⟨rfl, -⟩
    · have := (rows i).mp ⟨r, old, isI⟩
      omega
    · omega
  · intro ⟨low, high⟩
    by_cases isNew : i = m + 1
    · exact ⟨row, (mem_rowsOf_append appended).mpr (.inr ⟨rfl, rfl⟩), by omega⟩
    · obtain ⟨r, mem, isI⟩ := (rows i).mpr ⟨low, by omega⟩
      exact ⟨r, (mem_rowsOf_append appended).mpr (.inl mem), isI⟩

/-- A commit appends the next row to its community. -/
theorem contiguous_committed {s : State} (inv : Inv s) {k : CallId} {payload : LogSyncEntry}
    {createdAt : Int} {al : Allocated} {table : LogEntrySyncTable}
    (holding : s.calls k = some { payload, createdAt, stage := .allocated al })
    (inserts : s.db.logEntrySync.insert (rowOf payload createdAt al.syncSeq) = .ok table) {m : Nat}
    (contiguous : Contiguous s payload.communityId m) :
    Contiguous (((s.setCall k (some { payload, createdAt, stage := .returned al.syncSeq })).setLock
      payload.communityId none).commit payload.communityId table al.nextSyncSeq)
      payload.communityId (m + 1) := by
  obtain ⟨held, nextIs, -⟩ := inv k _ holding
  obtain ⟨appended, -⟩ := LogEntrySyncTable.insert_eq_ok inserts
  have seqIs : (al.syncSeq : Int) = m + 1 := contiguous.calls k _ holding rfl
  refine ⟨?_, ?_, ?_⟩
  · exact rowsExactly_append (rowOf payload createdAt al.syncSeq) contiguous.rows appended seqIs
  · intro next counter
    rw [State.commit_counter_self] at counter
    cases counter
    omega
  · intro j call underWay same
    rw [State.commit_calls, State.setLock_calls] at underWay
    by_cases moved : j = k
    · subst moved
      rw [State.setCall_calls_self] at underWay
      cases underWay
      trivial
    · rw [State.setCall_calls_of_ne _ _ moved] at underWay
      have before := contiguous.calls j call underWay same
      have sound := inv j call underWay
      cases stage : call.stage with
      | started r =>
        simp only [stage] at before ⊢
        omega
      | allocated other =>
        -- two calls cannot hold the lock of one counter
        simp only [CallInv, stage, same] at sound
        exact absurd (Option.some.inj (sound.1.symm.trans held)) moved
      | returned syncSeq => trivial
      | failed e => trivial

/-- **The step lemma of contiguity**: a step leaves the rows, or appends the next. -/
theorem contiguous_step {s s' : State} {a : Action} (inv : Inv s) (taken : Step s a s')
    {c : TeamId} {m : Nat} (contiguous : Contiguous s c m) :
    ∃ m', m ≤ m' ∧ Contiguous s' c m' := by
  have forall_calls := taken.forall_calls contiguous.calls
  cases taken with
  | submitted k payload createdAt idle =>
    refine ⟨m, le_refl m, contiguous.rows, contiguous.counter, forall_calls ?_⟩
    intro call underWay
    rw [Action.call, State.setCall_calls_self] at underWay
    cases underWay
    exact callContiguous_start contiguous.rows payload createdAt
  | exhausted k payload createdAt r started free none_ =>
    refine ⟨m, le_refl m, contiguous.rows, contiguous.counter, forall_calls ?_⟩
    intro call underWay _
    rw [Action.call, State.setCall_calls_self] at underWay
    cases underWay
    trivial
  | allocated k payload createdAt r al started free some_ =>
    refine ⟨m, le_refl m, contiguous.rows, contiguous.counter, forall_calls ?_⟩
    intro call underWay community
    rw [Action.call, State.setLock_calls, State.setCall_calls_self] at underWay
    cases underWay
    subst community
    obtain ⟨covers, origin⟩ := inv k _ started
    exact allocated_contiguous contiguous some_ covers origin (contiguous.calls k _ started rfl)
  | refused k payload createdAt al e holding violates =>
    refine ⟨m, le_refl m, contiguous.rows, contiguous.counter, forall_calls ?_⟩
    intro call underWay _
    rw [Action.call, State.setLock_calls, State.setCall_calls_self] at underWay
    cases underWay
    trivial
  | committed k payload createdAt al table holding inserts =>
    obtain ⟨appended, -⟩ := LogEntrySyncTable.insert_eq_ok inserts
    by_cases community : payload.communityId = c
    · subst community
      exact ⟨m + 1, Nat.le_succ m, contiguous_committed inv holding inserts contiguous⟩
    · refine ⟨m, le_refl m, ?_, ?_, forall_calls ?_⟩
      · intro i
        rw [rowsOf_append_of_ne (rowOf payload createdAt al.syncSeq) appended community]
        exact contiguous.rows i
      · intro next counter
        rw [State.commit_counter_of_ne _ _ _ (fun h => community h.symm)] at counter
        exact contiguous.counter next counter
      · intro call underWay _
        rw [Action.call, State.commit_calls, State.setLock_calls, State.setCall_calls_self]
          at underWay
        cases underWay
        trivial
  | answered k ended answer isEnded result =>
    refine ⟨m, le_refl m, contiguous.rows, contiguous.counter, forall_calls ?_⟩
    intro call underWay
    rw [Action.call, State.addAnswer_calls, State.setCall_calls_self] at underWay
    cases underWay

/-- **The run lemma of contiguity.** -/
theorem contiguous_run {db : Database} {c : TeamId} {n : Nat} (rows : RowsExactly db c n)
    (counter : ∀ next, db.logEntrySyncCounter c = some next → (next : Int) ≤ n + 1)
    {as : List Action} {s : State} (ran : run step (State.start db) as = some s) :
    ∃ m, n ≤ m ∧ RowsExactly s.db c m := by
  have started : Inv (State.start db) ∧ ∃ m, n ≤ m ∧ Contiguous (State.start db) c m :=
    ⟨inv_start db, n, le_refl n, rows, counter, fun k call underWay => by cases underWay⟩
  obtain ⟨-, m, le, contiguous⟩ := run_keeps
    (P := fun s => Inv s ∧ ∃ m, n ≤ m ∧ Contiguous s c m)
    (fun s a s' holds taken => by
      obtain ⟨inv, m, le, contiguous⟩ := holds
      have taken := step_eq_some.mp taken
      obtain ⟨m', grows, contiguous'⟩ := contiguous_step inv taken contiguous
      exact ⟨inv_step inv taken, m', le_trans le grows, contiguous'⟩) started ran
  exact ⟨m, le, contiguous.rows⟩

/-! ## Dates -/

/-- The rows have dates, and a statement that has not failed fits its columns. -/
structure DatedInv (s : State) : Prop where
  dated : s.db.Dated
  fits : ∀ k call, s.calls k = some call →
    (∃ e, call.stage = .failed e) ∨ Fits call.payload call.createdAt

theorem datedInv_step {s s' : State} {a : Action} (holds : DatedInv s) (taken : Step s a s') :
    DatedInv s' := by
  have forall_calls := taken.forall_calls holds.fits
  have notFailed : ∀ {k payload createdAt stage}, s.calls k = some { payload, createdAt, stage } →
      (∀ e, stage ≠ .failed e) → Fits payload createdAt := by
    intro k payload createdAt stage underWay goesOn
    rcases holds.fits k _ underWay with ⟨e, failed⟩ | fits
    · exact absurd failed (goesOn e)
    · exact fits
  cases taken with
  | submitted k payload createdAt idle =>
    refine ⟨holds.dated, forall_calls fun call underWay => ?_⟩
    rw [Action.call, State.setCall_calls_self] at underWay
    cases underWay
    by_cases fits : Fits payload createdAt
    · exact .inr fits
    · exact .inl (startStatement_of_not_fits s.db fits)
  | exhausted k payload createdAt r started free none_ =>
    refine ⟨holds.dated, forall_calls fun call underWay => ?_⟩
    rw [Action.call, State.setCall_calls_self] at underWay
    cases underWay
    exact .inl ⟨_, rfl⟩
  | allocated k payload createdAt r al started free some_ =>
    refine ⟨holds.dated, forall_calls fun call underWay => ?_⟩
    rw [Action.call, State.setLock_calls, State.setCall_calls_self] at underWay
    cases underWay
    exact .inr (notFailed started (by simp))
  | refused k payload createdAt al e holding violates =>
    refine ⟨holds.dated, forall_calls fun call underWay => ?_⟩
    rw [Action.call, State.setLock_calls, State.setCall_calls_self] at underWay
    cases underWay
    exact .inl ⟨_, rfl⟩
  | committed k payload createdAt al table holding inserts =>
    have fits := notFailed holding (by simp)
    obtain ⟨appended, -⟩ := LogEntrySyncTable.insert_eq_ok inserts
    refine ⟨?_, forall_calls fun call underWay => ?_⟩
    · intro row mem
      rw [State.commit_logEntrySync, appended, List.mem_append, List.mem_singleton] at mem
      rcases mem with old | rfl
      · exact holds.dated row old
      · have := fits.receivedAt
        simp only [rowOf, maxDate]
        omega
    · rw [Action.call, State.commit_calls, State.setLock_calls, State.setCall_calls_self] at underWay
      cases underWay
      exact .inr fits
  | answered k ended answer isEnded result =>
    refine ⟨holds.dated, forall_calls fun call underWay => ?_⟩
    rw [Action.call, State.addAnswer_calls, State.setCall_calls_self] at underWay
    cases underWay

/-- **The statement writes dates only**: from a table whose rows have them, every run keeps it so. -/
theorem dated_run {db : Database} (dated : db.Dated) {as : List Action} {s : State}
    (ran : run step (State.start db) as = some s) : s.db.Dated := by
  have started : DatedInv (State.start db) := ⟨dated, fun _ _ none_ => by cases none_⟩
  exact (run_keeps (fun s a s' holds taken => datedInv_step holds (step_eq_some.mp taken))
    started ran).dated

/-! ## Sound allocation -/

/-- **Sequence allocation is sound under any interleaving.** In every state that any run of
concurrent statements reaches from any database: the sequence numbers of a community are distinct;
a statement that fails does so because its id is a committed row's, or a value does not fit its
column, or the community's numbers are used up; a statement that is returned a number has its row
at that number; a step either leaves rows and counters as they are or commits one statement, whose
number lies beyond all committed before it; and rows `1..n` with a counter not ahead stay rows
`1..m`. -/
theorem allocation_sound (db : Database) (as : List Action) (s : State)
    (ran : run step (State.start db) as = some s) :
    (∀ c, ((s.db.rowsOf c).map fun row => (row.syncSeq : Int)).Nodup) ∧
    (∀ a s' k payload createdAt e, step s a = some s' →
      s'.calls k = some { payload, createdAt, stage := .failed e } →
      s.calls k ≠ some { payload, createdAt, stage := .failed e } →
      s'.db = s.db ∧ Refusable s.db payload createdAt) ∧
    (∀ k payload createdAt syncSeq,
      s.calls k = some { payload, createdAt, stage := .returned syncSeq } →
      rowOf payload createdAt syncSeq ∈ s.db.logEntrySync.rows) ∧
    (∀ a s', step s a = some s' → s'.db = s.db ∨ ∃ k payload createdAt syncSeq,
      a = .insert k ∧ Commits s s' k payload createdAt syncSeq) ∧
    (∀ c n, RowsExactly db c n →
      (∀ next, db.logEntrySyncCounter c = some next → (next : Int) ≤ n + 1) →
      ∃ m, n ≤ m ∧ RowsExactly s.db c m) := by
  have inv := inv_run ran
  refine ⟨s.db.rowsOf_syncSeq_nodup, ?_, ?_, ?_, ?_⟩
  · intro a s' k payload createdAt e taken failed fresh
    have taken := step_eq_some.mp taken
    refine ⟨?_, failed_because inv taken failed fresh⟩
    rcases db_step inv taken with same | ⟨j, p, t, seq, rfl, commits⟩
    · exact same
    · have moved : k = j := by
        by_contra other
        exact fresh (taken.calls_of_ne other ▸ failed)
      cases (moved ▸ failed).symm.trans commits.returned
  · intro k payload createdAt syncSeq returned
    exact inv k _ returned
  · intro a s' taken
    exact db_step inv (step_eq_some.mp taken)
  · intro c n rows counter
    exact contiguous_run rows counter ran

/-- A payload of one team, by its id. -/
def payloadNamed (cid : String) : LogSyncEntry where
  cid := cid
  hashedDbId := some "db"
  communityId := "team"
  entry := []
  receivedAt := 0

/-- Two calls that take their numbers in the other order than they read the table. -/
def firstRows : List Action :=
  [.submit 0 (payloadNamed "a") 0, .submit 1 (payloadNamed "b") 0, .allocate 1, .insert 1,
    .allocate 0, .insert 0]

/-- The stale call of `firstRows` still gets the next number. -/
theorem allocation_sound_firstRows :
    ∃ s, run step (State.start .empty) firstRows = some s ∧
      (s.db.rowsOf "team").map (fun row => (row.id, (row.syncSeq : Int))) = [("b", 1), ("a", 2)] ∧
      ∃ m : Nat, 0 ≤ m ∧ RowsExactly s.db "team" m := by
  refine ⟨_, rfl, by decide, ?_⟩
  refine (allocation_sound .empty firstRows _ rfl).2.2.2.2 "team" 0 ?_ ?_
  · intro i
    constructor
    · intro ⟨row, mem, _⟩
      cases mem
    · omega
  · intro next counter
    cases counter

/-- Only a used id fails a statement, in the runs from one database. -/
def FailsOnlyForUsedId (db : Database) : Prop :=
  ∀ as s, run step (State.start db) as = some s →
    ∀ a s' k payload createdAt e, step s a = some s' →
      s'.calls k = some { payload, createdAt, stage := .failed e } →
      s.calls k ≠ some { payload, createdAt, stage := .failed e } →
      ∃ row ∈ s.db.logEntrySync.rows, row.id = payload.cid

/-- An id one character longer than its column. -/
def overlongId : String := String.ofList (List.replicate 256 'a')

theorem overlongId_length : overlongId.length = 256 :=
  String.length_ofList.trans List.length_replicate

/-- A database whose only community has taken every number of its counter. -/
def exhaustedDatabase : Database where
  logEntrySync := .empty
  logEntrySyncCounter := fun _ => some ⟨bigintMax, by decide⟩

/-- **A fresh id can fail**: one that does not fit `varchar(255)` on the empty database, and any id
once the counter is at the end of `bigint`. -/
theorem fresh_id_can_fail :
    ¬ FailsOnlyForUsedId .empty ∧ ¬ FailsOnlyForUsedId exhaustedDatabase := by
  constructor
  · intro onlyUsed
    have overlong : ¬ Fits (payloadNamed overlongId) 0 := by
      intro fits
      have short : overlongId.length ≤ 255 := fits.cidLength
      have long := overlongId_length
      omega
    obtain ⟨e, failed⟩ := startStatement_of_not_fits .empty overlong
    obtain ⟨row, mem, -⟩ := onlyUsed [] _ rfl (.submit 0 (payloadNamed overlongId) 0) _ 0
      (payloadNamed overlongId) 0 e rfl
      (by rw [State.setCall_calls_self, ← failed]; rfl) (Option.some_ne_none _).symm
    cases mem
  · intro onlyUsed
    obtain ⟨row, mem, -⟩ := onlyUsed [.submit 0 (payloadNamed "a") 0] _ rfl (.allocate 0) _ 0
      (payloadNamed "a") 0 .numericValueOutOfRange rfl rfl (by decide)
    cases mem

end QuietStorage.Storage
