import QuietStorage.Storage.DuplicateError
import QuietStorage.Lib.Run
import Mathlib.Logic.Function.Basic

/-!
# Storage.AddLogEntry — concurrent `addLogEntry` calls against one database

`addLogEntry` sends one statement that reads the greatest sequence number of the community
(`recovered`), takes the next number from the counter row (`allocated`) and inserts the row
(`inserted`). Any number of calls are under way at once, each at its own stage; an `Action` names
the call that moves, so a run is one interleaving.

What is taken from the database: READ COMMITTED gives a statement one snapshot, the one it starts
with, so `recovered` is computed from the rows committed at `submit` and may be stale by the time
it is used. `on conflict do update` waits for the writer that holds the counter row and then sees
the row as last committed: `allocate` is enabled only while no call holds the lock of the
community's counter, and reads the committed counter. The lock is held until the statement ends. A
statement that fails changes nothing.

`insert` covers the insertion of the row and the commit. A statement that meets the key of a row
still in flight waits for that row's writer to end, so the outcome of its checks is decided against
committed rows only, and nobody sees a row between its insertion and its commit.

The transition is the function `step`; `Step` is the same thing as a relation with one named case
for each thing that can happen (`step_eq_some`), and is what the invariants are proved from.
-/

set_option autoImplicit false

namespace QuietStorage.Storage

open Lib.JsNumber

abbrev CallId := Nat

/-! ## The statement -/

/-- `recovered`: one more than the greatest sequence number of the community, or 1. -/
def recovered (db : Database) (communityId : TeamId) : Option Bigint :=
  match ((db.rowsOf communityId).map fun r => (r.syncSeq : Int)).max? with
  | none => bigint 1
  | some greatest => bigint (greatest + 1)

/-- The counter row a statement wrote and the number it took from it. -/
structure Allocated where
  nextSyncSeq : Bigint
  syncSeq : Bigint
  deriving DecidableEq

/-- The counter row after `insert .. on conflict do update`: the row inserted, or
`greatest(next_sync_seq, excluded.next_sync_seq - 1) + 1` in the row that was there. -/
def counterUpsert (counter : Option Bigint) (excluded : Bigint) : Option Bigint :=
  match counter with
  | none => some excluded
  | some nextSyncSeq => bigint (max (nextSyncSeq : Int) (excluded - 1) + 1)

/-- `allocated`: write the counter row and return the number before it. Every sum is a `bigint`. -/
def allocated (counter : Option Bigint) (recovered : Bigint) : Option Allocated := do
  let excluded ← bigint (recovered + 1)
  let nextSyncSeq ← counterUpsert counter excluded
  let syncSeq ← bigint (nextSyncSeq - 1)
  return { nextSyncSeq, syncSeq }

/-- How far a call has come. -/
inductive Stage where
  /-- The statement has its snapshot and, from it, `recovered`. -/
  | started (recovered : Bigint)
  /-- The statement has written the counter row, uncommitted, and holds its lock. -/
  | allocated (allocated : Allocated)
  /-- The statement is committed and returned the `sync_seq` of its row. -/
  | returned (syncSeq : Bigint)
  /-- The statement was rolled back. -/
  | failed (e : PgError)
  deriving DecidableEq

/-- A call of `addLogEntry` under way. -/
structure Call where
  payload : LogSyncEntry
  createdAt : Int
  stage : Stage
  deriving DecidableEq

/-- The statement up to its first wait: the parameters are converted and the snapshot is read. -/
def startStatement (db : Database) (payload : LogSyncEntry) (createdAt : Int) : Stage :=
  match columns payload createdAt with
  | .error e => .failed e
  | .ok _ =>
    match recovered db payload.communityId with
    | none => .failed .numericValueOutOfRange
    | some recovered => .started recovered

/-! ## The service -/

/-- `getStoredPositionById`: where the row with this id stands, whichever community it is in. -/
def getStoredPositionById (db : Database) (cid : String) : Option StoredSyncPosition :=
  (db.logEntrySync.findOne cid).map fun existingEntity =>
    { receivedAtMs := existingEntity.receivedAt, syncSeq := toSyncSeq existingEntity.syncSeq }

/-- What `addLogEntry` returns once its statement has ended. -/
def addLogEntryResult (db : Database) (payload : LogSyncEntry) :
    Stage → Option (Option StoredSyncPosition)
  | .returned syncSeq =>
    some (some { receivedAtMs := payload.receivedAt, syncSeq := toSyncSeq syncSeq })
  | .failed e =>
    if e.isDuplicateLogEntryId payload.cid then some (getStoredPositionById db payload.cid)
    else some none
  | _ => none

/-- The database, the locks on counter rows, the calls under way, and the answers given so far
(the latest first). -/
structure State where
  db : Database
  counterLock : TeamId → Option CallId
  calls : CallId → Option Call
  answers : List (LogSyncEntry × Option StoredSyncPosition)

namespace State

/-- No call is under way. -/
def start (db : Database) : State where
  db := db
  counterLock := fun _ => none
  calls := fun _ => none
  answers := []

def setCall (s : State) (k : CallId) (call : Option Call) : State :=
  { s with calls := Function.update s.calls k call }

def setLock (s : State) (communityId : TeamId) (holder : Option CallId) : State :=
  { s with counterLock := Function.update s.counterLock communityId holder }

/-- Commit a statement: its row is in the table and its counter row is the community's. -/
def commit (s : State) (communityId : TeamId) (table : LogEntrySyncTable) (next : Bigint) : State :=
  { s with
    db :=
      { logEntrySync := table
        logEntrySyncCounter := Function.update s.db.logEntrySyncCounter communityId (some next) } }

def addAnswer (s : State) (payload : LogSyncEntry) (answer : Option StoredSyncPosition) : State :=
  { s with answers := (payload, answer) :: s.answers }

/-! Each update changes one field, and one place in it. -/

variable (s : State) (k j : CallId) (c d : TeamId) (call : Option Call) (holder : Option CallId)
  (table : LogEntrySyncTable) (next : Bigint) (payload : LogSyncEntry)
  (answer : Option StoredSyncPosition)

@[simp] theorem setCall_db : (s.setCall k call).db = s.db := rfl
@[simp] theorem setCall_counterLock : (s.setCall k call).counterLock = s.counterLock := rfl
@[simp] theorem setCall_answers : (s.setCall k call).answers = s.answers := rfl
@[simp] theorem setCall_calls_self : (s.setCall k call).calls k = call := by
  simp only [setCall, Function.update_self]
theorem setCall_calls_of_ne {k j : CallId} (other : j ≠ k) :
    (s.setCall k call).calls j = s.calls j := by
  simp only [setCall, Function.update_of_ne other]
@[simp] theorem setLock_db : (s.setLock c holder).db = s.db := rfl
@[simp] theorem setLock_calls : (s.setLock c holder).calls = s.calls := rfl
@[simp] theorem setLock_answers : (s.setLock c holder).answers = s.answers := rfl
@[simp] theorem setLock_counterLock_self : (s.setLock c holder).counterLock c = holder := by
  simp only [setLock, Function.update_self]
@[simp] theorem commit_calls : (s.commit c table next).calls = s.calls := rfl
@[simp] theorem commit_counterLock : (s.commit c table next).counterLock = s.counterLock := rfl
@[simp] theorem commit_answers : (s.commit c table next).answers = s.answers := rfl
@[simp] theorem commit_logEntrySync : (s.commit c table next).db.logEntrySync = table := rfl
@[simp] theorem commit_counter_self :
    (s.commit c table next).db.logEntrySyncCounter c = some next := by
  simp only [commit, Function.update_self]
theorem commit_counter_of_ne {c d : TeamId} (other : d ≠ c) :
    (s.commit c table next).db.logEntrySyncCounter d = s.db.logEntrySyncCounter d := by
  simp only [commit, Function.update_of_ne other]
@[simp] theorem addAnswer_db : (s.addAnswer payload answer).db = s.db := rfl
@[simp] theorem addAnswer_calls : (s.addAnswer payload answer).calls = s.calls := rfl
@[simp] theorem addAnswer_counterLock :
    (s.addAnswer payload answer).counterLock = s.counterLock := rfl
@[simp] theorem addAnswer_answers :
    (s.addAnswer payload answer).answers = (payload, answer) :: s.answers := rfl

end State

/-- What can happen next, by the call it happens to. -/
inductive Action where
  /-- A new call sends its statement. -/
  | submit (k : CallId) (payload : LogSyncEntry) (createdAt : Int)
  | allocate (k : CallId)
  | insert (k : CallId)
  /-- The promise of the call settles. -/
  | answer (k : CallId)

/-- The call that moves. -/
def Action.call : Action → CallId
  | .submit k _ _ => k
  | .allocate k => k
  | .insert k => k
  | .answer k => k

/-- One step of the calls and the database. -/
def step (s : State) : Action → Option State
  | .submit k payload createdAt =>
    match s.calls k with
    | some _ => none
    | none =>
      some (s.setCall k (some
        { payload, createdAt, stage := startStatement s.db payload createdAt }))
  | .allocate k =>
    match s.calls k with
    | some { payload, createdAt, stage := .started recovered } =>
      match s.counterLock payload.communityId with
      | some _ => none
      | none =>
        match allocated (s.db.logEntrySyncCounter payload.communityId) recovered with
        | none =>
          some (s.setCall k (some
            { payload, createdAt, stage := .failed .numericValueOutOfRange }))
        | some allocated =>
          some ((s.setCall k (some { payload, createdAt, stage := .allocated allocated })).setLock
            payload.communityId (some k))
    | _ => none
  | .insert k =>
    match s.calls k with
    | some { payload, createdAt, stage := .allocated allocated } =>
      match s.db.logEntrySync.insert (rowOf payload createdAt allocated.syncSeq) with
      | .error e =>
        some ((s.setCall k (some { payload, createdAt, stage := .failed e })).setLock
          payload.communityId none)
      | .ok table =>
        some (((s.setCall k (some
          { payload, createdAt, stage := .returned allocated.syncSeq })).setLock
            payload.communityId none).commit payload.communityId table allocated.nextSyncSeq)
    | _ => none
  | .answer k =>
    match s.calls k with
    | some { payload, stage, .. } =>
      match addLogEntryResult s.db payload stage with
      | none => none
      | some answer => some ((s.setCall k none).addAnswer payload answer)
    | none => none

/-! ## The step as a relation -/

/-- **Everything a step can do**, by name. -/
inductive Step (s : State) : Action → State → Prop where
  | submitted (k : CallId) (payload : LogSyncEntry) (createdAt : Int) (idle : s.calls k = none) :
    Step s (.submit k payload createdAt)
      (s.setCall k (some { payload, createdAt, stage := startStatement s.db payload createdAt }))
  | exhausted (k : CallId) (payload : LogSyncEntry) (createdAt : Int) (recovered : Bigint)
    (call : s.calls k = some { payload, createdAt, stage := .started recovered })
    (free : s.counterLock payload.communityId = none)
    (none_ : allocated (s.db.logEntrySyncCounter payload.communityId) recovered = none) :
    Step s (.allocate k)
      (s.setCall k (some { payload, createdAt, stage := .failed .numericValueOutOfRange }))
  | allocated (k : CallId) (payload : LogSyncEntry) (createdAt : Int) (recovered : Bigint)
    (taken : Allocated)
    (call : s.calls k = some { payload, createdAt, stage := .started recovered })
    (free : s.counterLock payload.communityId = none)
    (some_ : allocated (s.db.logEntrySyncCounter payload.communityId) recovered = some taken) :
    Step s (.allocate k)
      ((s.setCall k (some { payload, createdAt, stage := .allocated taken })).setLock
        payload.communityId (some k))
  | refused (k : CallId) (payload : LogSyncEntry) (createdAt : Int) (taken : Allocated)
    (e : PgError) (call : s.calls k = some { payload, createdAt, stage := .allocated taken })
    (violates : s.db.logEntrySync.insert (rowOf payload createdAt taken.syncSeq) = .error e) :
    Step s (.insert k)
      ((s.setCall k (some { payload, createdAt, stage := .failed e })).setLock
        payload.communityId none)
  | committed (k : CallId) (payload : LogSyncEntry) (createdAt : Int) (taken : Allocated)
    (table : LogEntrySyncTable)
    (call : s.calls k = some { payload, createdAt, stage := .allocated taken })
    (inserts : s.db.logEntrySync.insert (rowOf payload createdAt taken.syncSeq) = .ok table) :
    Step s (.insert k)
      (((s.setCall k (some { payload, createdAt, stage := .returned taken.syncSeq })).setLock
        payload.communityId none).commit payload.communityId table taken.nextSyncSeq)
  | answered (k : CallId) (call : Call) (answer : Option StoredSyncPosition)
    (ended : s.calls k = some call)
    (result : addLogEntryResult s.db call.payload call.stage = some answer) :
    Step s (.answer k) ((s.setCall k none).addAnswer call.payload answer)

/-- The step function and its relation are the same thing. -/
theorem step_eq_some {s s' : State} {a : Action} : step s a = some s' ↔ Step s a s' := by
  constructor
  · intro taken
    cases a with
    | submit k payload createdAt =>
      simp only [step] at taken
      split at taken
      · cases taken
      · next idle => cases taken; exact .submitted k payload createdAt idle
    | allocate k =>
      simp only [step] at taken
      split at taken
      · next payload createdAt recovered call =>
        split at taken
        · cases taken
        · next free =>
          split at taken
          · next none_ =>
            cases taken
            exact .exhausted k payload createdAt recovered call free none_
          · next al some_ =>
            cases taken
            exact .allocated k payload createdAt recovered al call free some_
      · cases taken
    | insert k =>
      simp only [step] at taken
      split at taken
      · next payload createdAt al call =>
        split at taken
        · next e violates => cases taken; exact .refused k payload createdAt al e call violates
        · next table inserts =>
          cases taken
          exact .committed k payload createdAt al table call inserts
      · cases taken
    | answer k =>
      simp only [step] at taken
      split at taken
      · next payload createdAt stage ended =>
        split at taken
        · cases taken
        · next answer result =>
          cases taken
          exact .answered k { payload, createdAt, stage } answer ended result
      · cases taken
  · intro taken
    cases taken with
    | submitted k payload createdAt idle => simp only [step, idle]
    | exhausted k payload createdAt recovered call free none_ => simp only [step, call, free, none_]
    | allocated k payload createdAt recovered al call free some_ =>
      simp only [step, call, free, some_]
    | refused k payload createdAt al e call violates => simp only [step, call, violates]
    | committed k payload createdAt al table call inserts => simp only [step, call, inserts]
    | answered k call answer ended result =>
      simp only [step, ended, result]

/-- A step moves one call. -/
theorem Step.calls_of_ne {s s' : State} {a : Action} (taken : Step s a s') {j : CallId}
    (other : j ≠ a.call) : s'.calls j = s.calls j := by
  cases taken <;> exact State.setCall_calls_of_ne _ _ other

/-- A call keeps its payload from its submission on. -/
theorem Step.payload {s s' : State} {a : Action} (taken : Step s a s') {k : CallId} {call' : Call}
    (underWay : s'.calls k = some call') :
    (∃ call, s.calls k = some call ∧ call'.payload = call.payload) ∨
      ∃ createdAt, a = .submit k call'.payload createdAt := by
  by_cases moved : k = a.call
  · subst moved
    cases taken with
    | submitted k payload createdAt idle =>
      rw [Action.call, State.setCall_calls_self] at underWay
      cases underWay
      exact .inr ⟨createdAt, rfl⟩
    | exhausted k payload createdAt r call free none_ =>
      rw [Action.call, State.setCall_calls_self] at underWay
      cases underWay
      exact .inl ⟨_, call, rfl⟩
    | allocated k payload createdAt r al call free some_ =>
      rw [Action.call, State.setLock_calls, State.setCall_calls_self] at underWay
      cases underWay
      exact .inl ⟨_, call, rfl⟩
    | refused k payload createdAt al e call violates =>
      rw [Action.call, State.setLock_calls, State.setCall_calls_self] at underWay
      cases underWay
      exact .inl ⟨_, call, rfl⟩
    | committed k payload createdAt al table call inserts =>
      rw [Action.call, State.commit_calls, State.setLock_calls, State.setCall_calls_self]
        at underWay
      cases underWay
      exact .inl ⟨_, call, rfl⟩
    | answered k call answer ended result =>
      rw [Action.call, State.addAnswer_calls, State.setCall_calls_self] at underWay
      cases underWay
  · exact .inl ⟨call', taken.calls_of_ne moved ▸ underWay, rfl⟩

/-! ## What the parts of the statement compute -/

/-- `recovered` lies beyond every row of the snapshot, and it is 1 or the successor of a row. -/
theorem recovered_spec {db : Database} {c : TeamId} {r : Bigint} (h : recovered db c = some r) :
    (∀ row ∈ db.rowsOf c, (row.syncSeq : Int) < r) ∧
      ((db.rowsOf c = [] ∧ (r : Int) = 1) ∨ ∃ row ∈ db.rowsOf c, (r : Int) = row.syncSeq + 1) := by
  unfold recovered at h
  split at h
  · next empty =>
    have none_ : db.rowsOf c = [] := List.map_eq_nil_iff.mp (List.max?_eq_none_iff.mp empty)
    refine ⟨fun row mem => ?_, .inl ⟨none_, (bigint_eq_some.mp h).symm⟩⟩
    rw [none_] at mem
    cases mem
  · next greatest isMax =>
    obtain ⟨attained, bound⟩ := List.max?_eq_some_iff.mp isMax
    have successor := bigint_eq_some.mp h
    obtain ⟨row, mem, rfl⟩ := List.mem_map.mp attained
    refine ⟨fun other otherMem => ?_, .inr ⟨row, mem, successor.symm⟩⟩
    have := bound _ (List.mem_map_of_mem (f := fun r : LogEntrySync => (r.syncSeq : Int)) otherMem)
    omega

/-- `recovered` overflows only on the greatest `bigint`. -/
theorem recovered_eq_none {db : Database} {c : TeamId} (h : recovered db c = none) :
    ∃ row ∈ db.rowsOf c, bigintMax ≤ (row.syncSeq : Int) := by
  unfold recovered at h
  split at h
  · exact absurd h (by decide)
  · next greatest isMax =>
    obtain ⟨attained, -⟩ := List.max?_eq_some_iff.mp isMax
    obtain ⟨row, mem, rfl⟩ := List.mem_map.mp attained
    have low := row.syncSeq.property.1
    rcases bigint_eq_none.mp h with below | above
    · omega
    · exact ⟨row, mem, by omega⟩

/-- The number allocated is `recovered` for a new counter row and the greater of the two for an old
one, and the counter row is left one beyond it. -/
theorem allocated_spec {counter : Option Bigint} {recovered : Bigint} {al : Allocated}
    (h : allocated counter recovered = some al) :
    (al.nextSyncSeq : Int) = al.syncSeq + 1 ∧
      (al.syncSeq : Int) = counter.elim (recovered : Int) fun next => max next recovered := by
  obtain ⟨excluded, excludedOk, afterExcluded⟩ := Option.bind_eq_some_iff.mp h
  obtain ⟨next, nextOk, afterNext⟩ := Option.bind_eq_some_iff.mp afterExcluded
  obtain ⟨seq, seqOk, made⟩ := Option.bind_eq_some_iff.mp afterNext
  cases made
  have excludedIs := bigint_eq_some.mp excludedOk
  have seqIs := bigint_eq_some.mp seqOk
  cases counter with
  | none =>
    cases nextOk
    simp only [Option.elim_none]
    omega
  | some old =>
    have nextIs := bigint_eq_some.mp nextOk
    simp only [Option.elim_some]
    omega

/-- Allocation overflows only when `recovered` or the counter is the greatest `bigint`. -/
theorem allocated_eq_none {counter : Option Bigint} {recovered : Bigint}
    (h : allocated counter recovered = none) :
    bigintMax ≤ (recovered : Int) ∨ ∃ next, counter = some next ∧ bigintMax ≤ (next : Int) := by
  by_contra inside
  obtain ⟨recoveredBelow, counterBelow⟩ := not_or.mp inside
  have low := recovered.property.1
  obtain ⟨excluded, excludedOk⟩ := exists_bigint (n := (recovered : Int) + 1) (by omega) (by omega)
  have excludedIs := bigint_eq_some.mp excludedOk
  obtain ⟨next, nextOk, nextLow⟩ : ∃ next, counterUpsert counter excluded = some next ∧
      bigintMin + 1 ≤ (next : Int) := by
    cases counter with
    | none => exact ⟨excluded, rfl, by omega⟩
    | some old =>
      have oldLow := old.property.1
      have oldBelow : ¬ bigintMax ≤ (old : Int) := fun reached => counterBelow ⟨old, rfl, reached⟩
      obtain ⟨next, nextOk⟩ :=
        exists_bigint (n := max (old : Int) (excluded - 1) + 1) (by omega) (by omega)
      have nextIs := bigint_eq_some.mp nextOk
      exact ⟨next, nextOk, by omega⟩
  have nextHigh := next.property.2
  obtain ⟨seq, seqOk⟩ := exists_bigint (n := (next : Int) - 1) (by omega) (by omega)
  have computed : allocated counter recovered = some { nextSyncSeq := next, syncSeq := seq } := by
    simp only [allocated, excludedOk, nextOk, seqOk, Option.bind_eq_bind, Option.bind_some,
      Option.pure_def]
  rw [computed] at h
  cases h

end QuietStorage.Storage
