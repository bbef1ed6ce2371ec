import QuietStorage.Lib.Async
import QuietStorage.Lib.Linear

/-!
# Lib.Transactions — programs of database transactions that overlap

A table holds one row for an id. A transaction reads what is committed and what it has written itself,
and its statements run one at a time between those of others (read committed). What it has written is
locked: who wants to write the same row waits until it ends. `execute` is one statement.

**The machine.** Any number of calls run programs of statements (`Async`, with variables of their own) on
one table. A statement may fail, with or without having run, and then its caller does not know which
(`Choice.fails`); a commit that was sent and not answered may still take place, at any later moment
(`DbAction.settle`). Such a call is marked as lost when it ends.

**The rule.** `Sound` says that a program does what an operation of an `Object` says, at one moment
between its statements, on whatever rows the others leave when this statement runs, and that it only rolls
back once a statement failed. When all programs are sound, every run of the machine is linearizable
(`linearizable_of_sound`).

Nothing here names a program; the modules above instantiate the rows, the programs and the object.
-/

set_option autoImplicit false

namespace QuietStorage.Lib

/-! ## Tables and transactions -/

/-- Rows of `T`, with their ids; `U` is a set of new values for some columns, the id not among them. -/
structure Entity (T U : Type) where
  id : T → String
  assign : U → T → T
  /-- There is a column to set. -/
  hasKeys : U → Bool
  id_assign : ∀ updates row, id (assign updates row) = id row

section
variable {T U : Type} (E : Entity T U)

/-- The rows that are committed, by their ids. -/
@[ext] structure Table where
  row : String → Option T
  keyed : ∀ id t, row id = some t → E.id t = id

/-- What a transaction has written so far: a row, or that there is none any more. -/
structure Transaction where
  written : String → Option (Option T)
  keyed : ∀ id t, written id = some (some t) → E.id t = id

variable {E}

namespace Table

/-- No rows. -/
def empty : Table E where
  row := fun _ => none
  keyed := fun _ _ isSome => nomatch isSome

/-- The row is inserted, or replaces the one with its id. -/
def put (rows : Table E) (t : T) : Table E where
  row := Function.update rows.row (E.id t) (some t)
  keyed id t' isRow := by
    by_cases same : id = E.id t
    · subst same
      rw [Function.update_self] at isRow
      cases isRow
      rfl
    · rw [Function.update_of_ne same] at isRow
      exact rows.keyed id t' isRow

end Table

namespace Transaction

/-- Nothing is written yet. -/
def empty : Transaction E where
  written := fun _ => none
  keyed := fun _ _ isSome => nomatch isSome

/-- The row is written. -/
def write (tx : Transaction E) (t : T) : Transaction E where
  written := Function.update tx.written (E.id t) (some (some t))
  keyed id t' isRow := by
    by_cases same : id = E.id t
    · subst same
      rw [Function.update_self] at isRow
      cases isRow
      rfl
    · rw [Function.update_of_ne same] at isRow
      exact tx.keyed id t' isRow

/-- The rows with these ids are deleted. -/
def erase (tx : Transaction E) (ids : List String) : Transaction E where
  written id := if id ∈ ids then some none else tx.written id
  keyed id t isRow := by
    split at isRow
    · cases isRow
    · exact tx.keyed id t isRow

/-- The transaction has written the row. -/
def locks (tx : Transaction E) (id : String) : Bool := (tx.written id).isSome

end Transaction

/-- The row that a transaction sees. -/
def Table.visible (rows : Table E) (tx : Transaction E) (id : String) : Option T :=
  (tx.written id).getD (rows.row id)

/-- What the transaction has written is committed. -/
def Table.commit (rows : Table E) (tx : Transaction E) : Table E where
  row := rows.visible tx
  keyed id t isRow := by
    unfold visible at isRow
    cases isWritten : tx.written id with
    | none =>
      rw [isWritten] at isRow
      exact rows.keyed id t isRow
    | some written =>
      rw [isWritten] at isRow
      cases isRow
      exact tx.keyed id t isWritten

/-- A row that is there takes new values; `none` where there is no row, or nothing to set. -/
def Table.updated (rows : Table E) (id : String) (updates : U) : Option T :=
  if E.hasKeys updates then (rows.row id).map (E.assign updates) else none

/-! ## Statements -/

/-- The statement broke a unique constraint, or it was not answered. -/
inductive SqlError where
  | duplicate
  | failed
  deriving DecidableEq, Repr

inductive Statement (T U : Type) where
  | start
  | insert (entity : T)
  /-- Insert, or replace the row that is there. -/
  | upsert (entity : T)
  | nativeUpdate (id : String) (updates : U)
  /-- Delete every row. -/
  | nativeDelete
  | findOne (id : String)
  | count (id : String)
  | commit
  | rollback

namespace Statement

/-- An update and a delete say how many rows they touched. -/
abbrev Answer : Statement T U → Type
  | .start | .insert _ | .upsert _ | .commit | .rollback => Unit
  | .nativeUpdate _ _ | .nativeDelete | .count _ => Nat
  | .findOne _ => Option T

def isCommit : Statement T U → Bool
  | .commit => true
  | _ => false

end Statement

/-- What a statement leaves, and its answer. -/
abbrev Executed (E : Entity T U) (statement : Statement T U) :=
  Table E × Option (Transaction E) × Except SqlError statement.Answer

/-- One statement of a transaction that is open, `none` while it waits for a lock of another one. A
delete finds the rows `found`, all of them there: rows that others add meanwhile may escape it. An update
that sets nothing is not sent, and touches no row. -/
def executeIn (locked : String → Bool) (found : List String) (rows : Table E) (tx : Transaction E) :
    (statement : Statement T U) → Option (Executed E statement)
  | .start => some (rows, some tx, .error .failed)
  | .insert entity =>
    if locked (E.id entity) then none
    else match rows.visible tx (E.id entity) with
      | some _ => some (rows, some tx, .error .duplicate)
      | none => some (rows, some (tx.write entity), .ok ())
  | .upsert entity =>
    if locked (E.id entity) then none else some (rows, some (tx.write entity), .ok ())
  | .nativeUpdate id updates =>
    if E.hasKeys updates then
      match rows.visible tx id with
      | none => some (rows, some tx, .ok (0 : Nat))
      | some row =>
        if locked id then none else some (rows, some (tx.write (E.assign updates row)), .ok (1 : Nat))
    else some (rows, some tx, .ok (0 : Nat))
  | .nativeDelete =>
    if found.Nodup ∧ ∀ id ∈ found, (rows.visible tx id).isSome ∧ locked id = false then
      some (rows, some (tx.erase found), .ok found.length)
    else none
  | .findOne id => some (rows, some tx, .ok (rows.visible tx id))
  | .count id => some (rows, some tx, .ok (rows.visible tx id).toList.length)
  | .commit => some (rows.commit tx, none, .ok ())
  | .rollback => some (rows, none, .ok ())

/-- One statement. Ending a transaction that has ended already does nothing. -/
def execute (locked : String → Bool) (found : List String) (rows : Table E)
    (tx : Option (Transaction E)) (statement : Statement T U) : Option (Executed E statement) :=
  match tx with
  | some tx => executeIn locked found rows tx statement
  | none =>
    match statement with
    | .start => some (rows, some .empty, .ok ())
    | .commit => some (rows, none, .ok ())
    | .rollback => some (rows, none, .ok ())
    | _ => some (rows, none, .error .failed)

/-- The transaction, if it is open, has written the row. -/
def locks (tx : Option (Transaction E)) (id : String) : Bool := tx.any (·.locks id)

/-! ## The machine -/

/-- A program of a call, whose variables are of `L`. -/
abbrev DbM (L T U ε α : Type) := Async L (Statement T U) Statement.Answer ε α

/-- Where a call stands between two steps. -/
inductive DbCall (L T U ε R : Type) where
  | idle
  | waiting (locals : L) (statement : Statement T U)
      (rest : Except ε statement.Answer → DbM L T U ε R)
  /-- The program has ended; its caller does not know yet. -/
  | ended (r : Except ε R)
  | returned

variable {L ε R Op : Type}

/-- Run the program up to its next statement. -/
def DbCall.of (program : DbM L T U ε R) (locals : L) : DbCall L T U ε R :=
  match program.advance locals with
  | (locals, .waiting statement rest) => .waiting locals statement rest
  | (_, .done r) => .ended r

variable (E L ε R Op) in
structure DbState where
  rows : Table E
  transactions : Nat → Option (Transaction E)
  calls : Nat → DbCall L T U ε R
  /-- The calls that were made. -/
  made : List Nat
  /-- A statement of the call failed. -/
  faulted : Nat → Bool
  /-- The call sent a commit that was not answered. -/
  unanswered : Nat → Bool
  history : List (Mark Op (Except ε R))

namespace DbState

/-- No call was made. -/
def start (rows : Table E) : DbState E L ε R Op where
  rows := rows
  transactions := fun _ => none
  calls := fun _ => .idle
  made := []
  faulted := fun _ => false
  unanswered := fun _ => false
  history := []

/-- Another call has written the row, in a transaction that is open. -/
def locked (s : DbState E L ε R Op) (k : Nat) (id : String) : Bool :=
  s.made.any fun other => other != k && locks (s.transactions other) id

end DbState

/-- A statement runs, or it fails, before it ran or after. A delete finds the rows that are given. -/
inductive Choice where
  | runs (found : List String)
  | fails
  | runsAndFails (found : List String)

inductive DbAction (Op : Type) where
  | call (k : Nat) (op : Op)
  | perform (k : Nat) (choice : Choice)
  | ret (k : Nat)
  /-- The database is done with the transaction of a call that failed. -/
  | settle (k : Nat) (commits : Bool)

section
variable (thrown : SqlError → ε) (locals : L) (program : Op → DbM L T U ε R)

namespace DbState

/-- The answer of a statement, as the program sees it. -/
def lift {α : Type} : Except SqlError α → Except ε α
  | .ok a => .ok a
  | .error e => .error (thrown e)

/-- The call moves on, with the rows and the transaction that are given. -/
def moveCall (s : DbState E L ε R Op) (k : Nat) (rows : Table E) (tx : Option (Transaction E))
    (call : DbCall L T U ε R) (faulted unanswered : Bool) : DbState E L ε R Op :=
  { s with
    rows := rows
    transactions := Function.update s.transactions k tx
    calls := Function.update s.calls k call
    faulted := Function.update s.faulted k faulted
    unanswered := Function.update s.unanswered k unanswered }

/-- One choice for the statement of a call. -/
def perform (s : DbState E L ε R Op) (k : Nat) (vars : L) (statement : Statement T U)
    (rest : Except ε statement.Answer → DbM L T U ε R) : Choice → Option (DbState E L ε R Op)
  | .runs found =>
    (execute (s.locked k) found s.rows (s.transactions k) statement).map fun next =>
      s.moveCall k next.1 next.2.1 (.of (rest (lift thrown next.2.2)) vars) (s.faulted k)
        (s.unanswered k)
  | .fails =>
    some (s.moveCall k s.rows (s.transactions k) (.of (rest (.error (thrown .failed))) vars) true
      (s.unanswered k || statement.isCommit))
  | .runsAndFails found =>
    (execute (s.locked k) found s.rows (s.transactions k) statement).map fun next =>
      s.moveCall k next.1 next.2.1 (.of (rest (.error (thrown .failed))) vars) true (s.unanswered k)

end DbState

/-- One step, `none` if it is not enabled. -/
def dbStep (s : DbState E L ε R Op) : DbAction Op → Option (DbState E L ε R Op)
  | .call k op =>
    match s.calls k with
    | .idle => some { s with
        calls := Function.update s.calls k (.of (program op) locals)
        made := k :: s.made
        history := s.history ++ [.call k op] }
    | _ => none
  | .perform k choice =>
    match s.calls k with
    | .waiting vars statement rest => s.perform thrown k vars statement rest choice
    | _ => none
  | .ret k =>
    match s.calls k with
    | .ended r => some { s with
        calls := Function.update s.calls k .returned
        history := s.history ++ [if s.faulted k then .lost k else .ret k r] }
    | _ => none
  | .settle k commits =>
    match s.faulted k, s.transactions k with
    | true, some tx =>
      if commits then
        if s.unanswered k then
          some (s.moveCall k (s.rows.commit tx) none (s.calls k) true true)
        else none
      else some (s.moveCall k s.rows none (s.calls k) true (s.unanswered k))
    | _, _ => none

end

/-! ## What a statement can do -/

section
variable {locked : String → Bool} {found : List String} {rows rows' : Table E}
  {tx tx' : Option (Transaction E)} {statement : Statement T U}
  {r : Except SqlError statement.Answer}

theorem locks_write (tx : Transaction E) (t : T) (id : String) :
    (tx.write t).locks id = (decide (id = E.id t) || tx.locks id) := by
  by_cases same : id = E.id t
  · simp only [Transaction.locks, Transaction.write, same, Function.update_self, Option.isSome_some,
      decide_true, Bool.true_or]
  · simp only [Transaction.locks, Transaction.write, Function.update_of_ne same, same, decide_false,
      Bool.false_or]

@[simp] theorem locks_write_self (tx : Transaction E) (t : T) :
    locks (some (tx.write t)) (E.id t) = true := by
  simp only [locks, Option.any_some, locks_write, decide_true, Bool.true_or]

theorem locks_erase (tx : Transaction E) (ids : List String) (id : String) :
    (tx.erase ids).locks id = (decide (id ∈ ids) || tx.locks id) := by
  by_cases isIn : id ∈ ids
  · simp only [Transaction.locks, Transaction.erase, isIn, if_true, Option.isSome_some, decide_true,
      Bool.true_or]
  · simp only [Transaction.locks, Transaction.erase, isIn, if_false, decide_false, Bool.false_or]

@[simp] theorem locks_empty (id : String) : (Transaction.empty (E := E)).locks id = false := rfl

/-- A commit leaves alone what the transaction has not written. -/
theorem commit_row_of_unlocked {tx : Transaction E} {id : String} (free : tx.locks id = false) :
    (rows.commit tx).row id = rows.row id := by
  have isNone : tx.written id = none := Option.not_isSome_iff_eq_none.mp (Bool.eq_false_iff.mp free)
  simp only [Table.commit, Table.visible, isNone, Option.getD_none]

/-- **What a statement can do**: it changes only rows that its transaction has written, and it writes
only rows that no other transaction has. -/
theorem execute_frame (ran : execute locked found rows tx statement = some (rows', tx', r)) :
    (∀ id, locks tx id = false → rows'.row id = rows.row id) ∧
      ∀ id, locks tx' id = true → locks tx id = true ∨ locked id = false := by
  cases tx with
  | none =>
    -- nothing is written
    cases statement <;> (cases ran; exact ⟨fun _ _ => rfl, fun _ isLocked => nomatch isLocked⟩)
  | some tx =>
    have same : ∀ {id}, locks (some tx) id = true →
        locks (some tx) id = true ∨ locked id = false := fun isLocked => .inl isLocked
    have wrote : ∀ {t : T}, ¬locked (E.id t) = true → ∀ id, locks (some (tx.write t)) id = true →
        locks (some tx) id = true ∨ locked id = false := by
      intro t free id isLocked
      rw [locks, Option.any_some, locks_write, Bool.or_eq_true, decide_eq_true_eq] at isLocked
      rcases isLocked with rfl | isLocked
      · exact .inr (Bool.eq_false_iff.mpr free)
      · exact .inl isLocked
    cases statement with
    | start => cases ran; exact ⟨fun _ _ => rfl, fun _ => same⟩
    | insert entity =>
      dsimp only [execute, executeIn] at ran
      split at ran
      · cases ran
      · next free =>
        split at ran
        · cases ran
          exact ⟨fun _ _ => rfl, fun _ => same⟩
        · cases ran
          exact ⟨fun _ _ => rfl, wrote free⟩
    | upsert entity =>
      dsimp only [execute, executeIn] at ran
      split at ran
      · cases ran
      · next free =>
        cases ran
        exact ⟨fun _ _ => rfl, wrote free⟩
    | nativeUpdate id updates =>
      dsimp only [execute, executeIn] at ran
      split at ran
      · split at ran
        · cases ran
          exact ⟨fun _ _ => rfl, fun _ => same⟩
        · next row isRow =>
          split at ran
          · cases ran
          · next free =>
            cases ran
            have isId : E.id (E.assign updates row) = id :=
              (E.id_assign updates row).trans ((rows.commit tx).keyed id row isRow)
            rw [← isId] at free
            exact ⟨fun _ _ => rfl, wrote free⟩
      · cases ran
        exact ⟨fun _ _ => rfl, fun _ => same⟩
    | nativeDelete =>
      dsimp only [execute, executeIn] at ran
      split at ran
      · next finds =>
        cases ran
        refine ⟨fun _ _ => rfl, fun id isLocked => ?_⟩
        rw [locks, Option.any_some, locks_erase, Bool.or_eq_true, decide_eq_true_eq] at isLocked
        exact isLocked.elim (fun isIn => .inr (finds.2 id isIn).2) .inl
      · cases ran
    | findOne id => cases ran; exact ⟨fun _ _ => rfl, fun _ => same⟩
    | count id => cases ran; exact ⟨fun _ _ => rfl, fun _ => same⟩
    | commit =>
      cases ran
      exact ⟨fun id free => commit_row_of_unlocked free, fun _ isLocked => nomatch isLocked⟩
    | rollback => cases ran; exact ⟨fun _ _ => rfl, fun _ isLocked => nomatch isLocked⟩

/-- What the first insert of a transaction does: the id has a row, or the row is written. -/
theorem insert_ran {entity : T} {r : Except SqlError Unit}
    (ran : execute locked found rows (some .empty) (.insert entity : Statement T U) =
      some (rows', tx', r)) :
    rows' = rows ∧ ((∃ row, rows.row (E.id entity) = some row ∧ tx' = some .empty ∧
        r = .error .duplicate) ∨
      rows.row (E.id entity) = none ∧ tx' = some (.write .empty entity) ∧ r = .ok ()) := by
  dsimp only [execute, executeIn] at ran
  split at ran
  · cases ran
  split at ran
  · next row there =>
    cases ran
    exact ⟨rfl, .inl ⟨row, there, rfl, rfl⟩⟩
  · next absent =>
    cases ran
    exact ⟨rfl, .inr ⟨absent, rfl, rfl⟩⟩

/-- What the first update of a transaction does: it touches nothing, or the new row is written. -/
theorem nativeUpdate_ran {id : String} {updates : U} {r : Except SqlError Nat}
    (ran : execute locked found rows (some .empty) (.nativeUpdate id updates : Statement T U) =
      some (rows', tx', r)) :
    rows' = rows ∧ (rows.updated id updates = none ∧ tx' = some .empty ∧ r = .ok 0 ∨
      ∃ row, rows.updated id updates = some row ∧ E.id row = id ∧ tx' = some (.write .empty row) ∧
        r = .ok 1) := by
  dsimp only [execute, executeIn] at ran
  split at ran
  · next sets =>
    split at ran
    · next absent =>
      cases ran
      refine ⟨rfl, .inl ⟨?_, rfl, rfl⟩⟩
      rw [Table.updated, if_pos sets, Option.map_eq_none_iff]
      exact absent
    · next row there =>
      split at ran
      · cases ran
      cases ran
      refine ⟨rfl, .inr ⟨E.assign updates row, ?_, ?_, rfl, rfl⟩⟩
      · rw [Table.updated, if_pos sets, Option.map_eq_some_iff]
        exact ⟨row, there, rfl⟩
      · exact (E.id_assign updates row).trans (rows.keyed id row there)
  · next setsNone =>
    cases ran
    exact ⟨rfl, .inl ⟨if_neg setsNone, rfl, rfl⟩⟩

/-- The commit of a transaction that has written one row. -/
theorem commit_write (t : T) : rows.commit (.write .empty t) = rows.put t := by
  ext id : 2
  by_cases same : id = E.id t
  · subst same
    simp only [Table.commit, Table.visible, Transaction.write, Table.put, Function.update_self,
      Option.getD_some]
  · simp only [Table.commit, Table.visible, Transaction.write, Table.put, Function.update_of_ne same,
      Transaction.empty, Option.getD_none]

end

/-! ## Sound programs -/

section
variable (obj : Object (Table E) Op (Except ε R)) (thrown : SqlError → ε) (op : Op)

/-- What a statement of a call makes of the rows and of the phase of the call: nothing, or its operation
takes place. -/
inductive Moves (rows : Table E) (phase : Phase Op (Except ε R)) :
    Table E → Phase Op (Except ε R) → Prop where
  | stays : Moves rows phase rows phase
  | effect (isCalled : phase = .called op) :
      Moves rows phase (obj op rows).1 (.done op (obj op rows).2)

/-- The call may return `r`: its operation took place and answered so, or it answers so at any moment and
changes nothing. -/
def Answers (phase : Phase Op (Except ε R)) (r : Except ε R) : Prop :=
  phase = .done op r ∨ phase = .called op ∧ ∀ rows, obj op rows = (rows, r)

/-- The others leave alone what the transaction has written. -/
def Knows (tx : Option (Transaction E)) (view rows : Table E) : Prop :=
  ∀ id, locks tx id = true → rows.row id = view.row id

/-- The row that a transaction has written is the one that it found. -/
theorem Knows.row {tx : Transaction E} {t : T} {view rows : Table E}
    (knows : Knows (some (tx.write t)) view rows) : rows.row (E.id t) = view.row (E.id t) :=
  knows (E.id t) (locks_write_self tx t)

/-- The program rolls back, and sends nothing else. -/
def RollsBack : DbM L T U ε R → Prop
  | .pure _ => True
  | .throw _ => True
  | .sync _ rest => ∀ vars, RollsBack (rest vars)
  | .await statement rest => statement = .rollback ∧ ∀ r, RollsBack (rest r)

/-- **The program does what the operation says**, from a phase of its call, with a transaction, when the
rows were last seen as `view`; and it only rolls back once a statement was not answered. -/
def Sound : DbM L T U ε R → L → Phase Op (Except ε R) → Option (Transaction E) → Table E → Prop
  | .pure a, _, phase, _, _ => Answers obj op phase (.ok a)
  | .throw e, _, phase, _, _ => Answers obj op phase (.error e)
  | .sync f rest, vars, phase, tx, view => Sound (rest vars) (f vars) phase tx view
  | .await statement rest, vars, phase, tx, view =>
    RollsBack (rest (.error (thrown .failed))) ∧
      ∀ rows, Knows tx view rows → ∀ locked found rows' tx' r,
        execute locked found rows tx statement = some (rows', tx', r) →
        ∃ phase', Moves obj op rows phase rows' phase' ∧
          Sound (rest (DbState.lift thrown r)) vars phase' tx' rows'

/-- Where a sound program stands. -/
def DbCall.Sound (phase : Phase Op (Except ε R)) (tx : Option (Transaction E)) (view : Table E) :
    DbCall L T U ε R → Prop
  | .waiting vars statement rest => Lib.Sound obj thrown op (.await statement rest) vars phase tx view
  | .ended r => Answers obj op phase r
  | _ => False

variable {obj thrown op}

/-- Where a program stands that only rolls back. -/
def DbCall.RollsBack : DbCall L T U ε R → Prop
  | .waiting _ statement rest => Lib.RollsBack (.await statement rest)
  | .idle => False
  | _ => True

theorem Moves.of_eq {rows rows' : Table E} {phase : Phase Op (Except ε R)} {r : Except ε R}
    (isCalled : phase = .called op) (applied : obj op rows = (rows', r)) :
    Moves obj op rows phase rows' (.done op r) := by
  have effect : Moves obj op rows phase (obj op rows).1 (.done op (obj op rows).2) :=
    .effect isCalled
  rw [applied] at effect
  exact effect

theorem Sound.of {m : DbM L T U ε R} {vars : L} {phase : Phase Op (Except ε R)}
    {tx : Option (Transaction E)} {view : Table E} (sound : Sound obj thrown op m vars phase tx view) :
    (DbCall.of m vars).Sound obj thrown op phase tx view := by
  induction m generalizing vars with
  | pure a => exact sound
  | throw e => exact sound
  | sync f rest ih => exact ih vars sound
  | await statement rest => exact sound

theorem RollsBack.of {m : DbM L T U ε R} (rollsBack : RollsBack m) (vars : L) :
    (DbCall.of m vars).RollsBack := by
  induction m generalizing vars with
  | pure a => trivial
  | throw e => trivial
  | sync f rest ih => exact ih vars (rollsBack vars) (f vars)
  | await statement rest => exact rollsBack

end

/-! ## Runs -/

section
variable (obj : Object (Table E) Op (Except ε R)) (thrown : SqlError → ε)

/-- A commit that was not answered does, if it takes place, what the operation of the call says. -/
def Unanswered (s : DbState E L ε R Op) (k : Nat) (phase : Phase Op (Except ε R)) : Prop :=
  s.unanswered k = true → ∀ tx, s.transactions k = some tx →
    ∃ (op : Op) (vars : L) (view : Table E) (rest : Except ε Unit → DbM L T U ε R),
      Knows (some tx) view s.rows ∧
        Sound obj thrown op (.await .commit rest) vars phase (some tx) view

/-- What a call that stands in a phase has left to do. -/
inductive Stands (s : DbState E L ε R Op) (k : Nat) (phase : Phase Op (Except ε R)) : Prop where
  | idle (isIdle : s.calls k = .idle) (notMade : phase = .idle) (none_ : s.transactions k = none)
      (unfaulted : s.faulted k = false) (answered : s.unanswered k = false)
  | sound (op : Op) (view : Table E) (knows : Knows (s.transactions k) view s.rows)
      (sound : (s.calls k).Sound obj thrown op phase (s.transactions k) view)
      (unfaulted : s.faulted k = false) (answered : s.unanswered k = false)
  | faulted (isFaulted : s.faulted k = true) (rollsBack : (s.calls k).RollsBack)
      (unanswered : Unanswered obj thrown s k phase)
  | returned (isReturned : s.calls k = .returned) (unfaulted : s.faulted k = false)

/-- The history with the moments at which the operations took place, and where each call stands. -/
structure DbInv (rows₀ : Table E) (s : DbState E L ε R Op) : Prop where
  points : ∃ order phases, Points obj rows₀ s.history order phases s.rows ∧
    ∀ k, Stands obj thrown s k (phases k)
  apart : ∀ j k id, j ≠ k → locks (s.transactions j) id = true →
    locks (s.transactions k) id = false
  made : ∀ k, s.calls k = .idle ∧ s.transactions k = none ∨ k ∈ s.made

variable {obj thrown} {rows₀ : Table E} {s s' : DbState E L ε R Op}

/-- A call stands where it stood when another one takes a step. -/
theorem Stands.other {k : Nat} {phase : Phase Op (Except ε R)} (stands : Stands obj thrown s k phase)
    (calls : s'.calls k = s.calls k) (transactions : s'.transactions k = s.transactions k)
    (faulted : s'.faulted k = s.faulted k) (unanswered : s'.unanswered k = s.unanswered k)
    (rows : ∀ id, locks (s.transactions k) id = true → s'.rows.row id = s.rows.row id) :
    Stands obj thrown s' k phase := by
  cases stands with
  | idle isIdle notMade none_ unfaulted answered =>
    exact .idle (calls ▸ isIdle) notMade (transactions ▸ none_) (faulted ▸ unfaulted)
      (unanswered ▸ answered)
  | sound op view knows sound unfaulted answered =>
    refine .sound op view ?_ ?_ (faulted ▸ unfaulted) (unanswered ▸ answered)
    · rw [transactions]
      exact fun id isLocked => (rows id isLocked).trans (knows id isLocked)
    · rw [transactions, calls]
      exact sound
  | faulted isFaulted rollsBack pending =>
    refine .faulted (faulted ▸ isFaulted) (calls ▸ rollsBack) fun isUnanswered tx isOpen => ?_
    rw [unanswered] at isUnanswered
    rw [transactions] at isOpen
    obtain ⟨op, vars, view, rest, knows, sound⟩ := pending isUnanswered tx isOpen
    refine ⟨op, vars, view, rest, fun id isLocked => ?_, sound⟩
    exact (rows id (isOpen ▸ isLocked)).trans (knows id isLocked)
  | returned isReturned unfaulted => exact .returned (calls ▸ isReturned) (faulted ▸ unfaulted)

/-- A statement that moves a call is a step of the history. -/
theorem Points.moves {history : List (Mark Op (Except ε R))} {order : List (Entry Op (Except ε R))}
    {phases : Nat → Phase Op (Except ε R)} {rows rows' : Table E} {k : Nat} {op : Op}
    {phase' : Phase Op (Except ε R)} (points : Points obj rows₀ history order phases rows)
    (moves : Moves obj op rows (phases k) rows' phase') :
    ∃ order', Points obj rows₀ history order' (Function.update phases k phase') rows' := by
  cases moves with
  | stays =>
    rw [Function.update_eq_self]
    exact ⟨order, points⟩
  | effect isCalled => exact ⟨_, points.effect k op isCalled⟩

theorem DbInv.free (inv : DbInv obj thrown rows₀ s) {j k : Nat} {id : String}
    (free : s.locked k id = false) (other : j ≠ k) : locks (s.transactions j) id = false := by
  rcases inv.made j with ⟨_, none_⟩ | made
  · rw [none_]
    rfl
  · have := List.any_eq_false.mp free j made
    simp only [bne_iff_ne, ne_eq, other, not_false_eq_true, Bool.and_eq_true, true_and,
      Bool.not_eq_true] at this
    exact this

/-- **A statement and the others**: what another transaction has written stays as it is, and no row is
written by two. -/
theorem DbInv.executed (inv : DbInv obj thrown rows₀ s) {k : Nat} {found : List String}
    {rows' : Table E} {tx' : Option (Transaction E)} {statement : Statement T U}
    {r : Except SqlError statement.Answer}
    (ran : execute (s.locked k) found s.rows (s.transactions k) statement = some (rows', tx', r)) :
    (∀ j, j ≠ k → ∀ id, locks (s.transactions j) id = true → rows'.row id = s.rows.row id) ∧
      ∀ i j id, i ≠ j → locks (Function.update s.transactions k tx' i) id = true →
        locks (Function.update s.transactions k tx' j) id = false := by
  obtain ⟨changes, writes⟩ := execute_frame ran
  have others : ∀ j id, j ≠ k → locks tx' id = true → locks (s.transactions j) id = false := by
    intro j id other isLocked
    rcases writes id isLocked with before | free
    · exact inv.apart k j id (Ne.symm other) before
    · exact inv.free free other
  refine ⟨fun j other id isLocked => changes id (inv.apart j k id other isLocked), ?_⟩
  intro i j id ne isLocked
  by_cases isI : i = k
  · subst isI
    rw [Function.update_self] at isLocked
    rw [Function.update_of_ne (Ne.symm ne)]
    exact others j id (Ne.symm ne) isLocked
  · rw [Function.update_of_ne isI] at isLocked
    by_cases isJ : j = k
    · subst isJ
      rw [Function.update_self]
      cases isLocked' : locks tx' id with
      | false => rfl
      | true =>
        rw [others i id ne isLocked'] at isLocked
        cases isLocked
    · rw [Function.update_of_ne isJ]
      exact inv.apart i j id ne isLocked

/-- A step of the call `k` that leaves the others where they are. -/
structure OfCall (s : DbState E L ε R Op) (k : Nat) (s' : DbState E L ε R Op) : Prop where
  calls : ∀ j, j ≠ k → s'.calls j = s.calls j
  transactions : ∀ j, j ≠ k → s'.transactions j = s.transactions j
  faulted : ∀ j, j ≠ k → s'.faulted j = s.faulted j
  unanswered : ∀ j, j ≠ k → s'.unanswered j = s.unanswered j
  rows : ∀ j, j ≠ k → ∀ id, locks (s.transactions j) id = true → s'.rows.row id = s.rows.row id
  apart : ∀ i j id, i ≠ j → locks (s'.transactions i) id = true →
    locks (s'.transactions j) id = false
  made : ∀ j ∈ s.made, j ∈ s'.made

/-- What is left to show of such a step: the history, and where the call itself stands. -/
theorem DbInv.ofCall (inv : DbInv obj thrown rows₀ s) {k : Nat} {order : List (Entry Op (Except ε R))}
    {phases : Nat → Phase Op (Except ε R)} (stands : ∀ j, Stands obj thrown s j (phases j))
    (ofCall : OfCall s k s') (isMade : k ∈ s'.made) {phase' : Phase Op (Except ε R)}
    (points : Points obj rows₀ s'.history order (Function.update phases k phase') s'.rows)
    (here : Stands obj thrown s' k phase') : DbInv obj thrown rows₀ s' where
  points := by
    refine ⟨order, _, points, fun j => ?_⟩
    by_cases same : j = k
    · subst same
      rw [Function.update_self]
      exact here
    · rw [Function.update_of_ne same]
      exact (stands j).other (ofCall.calls j same) (ofCall.transactions j same)
        (ofCall.faulted j same) (ofCall.unanswered j same) (ofCall.rows j same)
  apart := ofCall.apart
  made j := by
    by_cases same : j = k
    · exact .inr (same ▸ isMade)
    · rw [ofCall.calls j same, ofCall.transactions j same]
      exact (inv.made j).imp_right (ofCall.made j)

theorem ofCall_moveCall {k : Nat} {rows' : Table E} {tx' : Option (Transaction E)}
    (others : ∀ j, j ≠ k → ∀ id, locks (s.transactions j) id = true →
      rows'.row id = s.rows.row id)
    (apart : ∀ i j id, i ≠ j → locks (Function.update s.transactions k tx' i) id = true →
      locks (Function.update s.transactions k tx' j) id = false)
    (call : DbCall L T U ε R) (faulted unanswered : Bool) :
    OfCall s k (s.moveCall k rows' tx' call faulted unanswered) where
  calls _ other := Function.update_of_ne other ..
  transactions _ other := Function.update_of_ne other ..
  faulted _ other := Function.update_of_ne other ..
  unanswered _ other := Function.update_of_ne other ..
  rows := others
  apart := apart
  made _ isMade := isMade

/-- A statement that runs. -/
theorem DbInv.ofCall_runs (inv : DbInv obj thrown rows₀ s) {k : Nat} {found : List String}
    {statement : Statement T U} {next : Executed E statement}
    (ran : execute (s.locked k) found s.rows (s.transactions k) statement = some next)
    (call : DbCall L T U ε R) (faulted unanswered : Bool) :
    OfCall s k (s.moveCall k next.1 next.2.1 call faulted unanswered) :=
  ofCall_moveCall (inv.executed ran).1 (inv.executed ran).2 call faulted unanswered

/-- A statement that does not run. -/
theorem DbInv.ofCall_fails (inv : DbInv obj thrown rows₀ s) (k : Nat) (call : DbCall L T U ε R)
    (faulted unanswered : Bool) :
    OfCall s k (s.moveCall k s.rows (s.transactions k) call faulted unanswered) := by
  refine ofCall_moveCall (fun _ _ _ _ => rfl) ?_ call faulted unanswered
  rw [Function.update_eq_self]
  exact inv.apart

/-! ### Each step -/

section
variable {k : Nat} {vars : L} {statement : Statement T U}
  {rest : Except ε statement.Answer → DbM L T U ε R}

/-- A call that was not told of a failure goes on with its operation, whatever the choice. -/
theorem DbInv.perform_sound (inv : DbInv obj thrown rows₀ s)
    {order : List (Entry Op (Except ε R))} {phases : Nat → Phase Op (Except ε R)}
    (points : Points obj rows₀ s.history order phases s.rows)
    (stands : ∀ j, Stands obj thrown s j (phases j)) (isMade : k ∈ s.made) {op : Op} {view : Table E}
    (knows : Knows (s.transactions k) view s.rows)
    (sound : Sound obj thrown op (.await statement rest) vars (phases k) (s.transactions k) view)
    (unfaulted : s.faulted k = false) (answered : s.unanswered k = false) {choice : Choice}
    (taken : s.perform thrown k vars statement rest choice = some s') :
    DbInv obj thrown rows₀ s' := by
  obtain ⟨rollsBack, goesOn⟩ := sound
  cases choice with
  | runs found =>
    obtain ⟨⟨rows', tx', r⟩, ran, rfl⟩ := Option.map_eq_some_iff.mp taken
    obtain ⟨phase', moves, rest_⟩ := goesOn s.rows knows _ _ _ _ _ ran
    obtain ⟨order', points'⟩ := points.moves moves
    refine inv.ofCall stands (inv.ofCall_runs ran _ _ _) isMade points' ?_
    refine .sound op rows' ?_ ?_ ?_ ?_
    · exact fun _ _ => rfl
    · simp only [DbState.moveCall, Function.update_self]
      exact rest_.of
    · simp only [DbState.moveCall, Function.update_self, unfaulted]
    · simp only [DbState.moveCall, Function.update_self, answered]
  | fails =>
    cases taken
    rw [← Function.update_eq_self k phases] at points
    refine inv.ofCall stands (inv.ofCall_fails k _ _ _) isMade points ?_
    refine .faulted ?_ ?_ ?_
    · simp only [DbState.moveCall, Function.update_self]
    · simp only [DbState.moveCall, Function.update_self]
      exact rollsBack.of vars
    · intro isUnanswered tx isOpen
      simp only [DbState.moveCall, Function.update_self, answered, Bool.false_or] at isUnanswered
      simp only [DbState.moveCall, Function.update_eq_self] at isOpen
      cases statement with
      | commit =>
        rw [isOpen] at knows goesOn
        exact ⟨op, vars, view, rest, knows, rollsBack, goesOn⟩
      | _ => cases isUnanswered
  | runsAndFails found =>
    obtain ⟨⟨rows', tx', r⟩, ran, rfl⟩ := Option.map_eq_some_iff.mp taken
    obtain ⟨phase', moves, _⟩ := goesOn s.rows knows _ _ _ _ _ ran
    obtain ⟨order', points'⟩ := points.moves moves
    refine inv.ofCall stands (inv.ofCall_runs ran _ _ _) isMade points' ?_
    refine .faulted ?_ ?_ ?_
    · simp only [DbState.moveCall, Function.update_self]
    · simp only [DbState.moveCall, Function.update_self]
      exact rollsBack.of vars
    · intro isUnanswered
      simp only [DbState.moveCall, Function.update_self, answered, reduceCtorEq] at isUnanswered

/-- A call that was told of a failure rolls back. -/
theorem DbInv.perform_faulted (inv : DbInv obj thrown rows₀ s)
    {order : List (Entry Op (Except ε R))} {phases : Nat → Phase Op (Except ε R)}
    (points : Points obj rows₀ s.history order phases s.rows)
    (stands : ∀ j, Stands obj thrown s j (phases j)) (isMade : k ∈ s.made)
    (isFaulted : s.faulted k = true) (rollsBack : RollsBack (.await statement rest))
    (pending : Unanswered obj thrown s k (phases k)) {choice : Choice}
    (taken : s.perform thrown k vars statement rest choice = some s') :
    DbInv obj thrown rows₀ s' := by
  obtain ⟨rfl, later⟩ := rollsBack
  rw [← Function.update_eq_self k phases] at points
  have ends : ∀ found next, execute (s.locked k) found s.rows (s.transactions k)
      (.rollback : Statement T U) = some next → next.1 = s.rows ∧ next.2.1 = none := by
    intro found next ran
    cases isOpen : s.transactions k with
    | none =>
      rw [isOpen] at ran
      cases ran
      exact ⟨rfl, rfl⟩
    | some tx =>
      rw [isOpen] at ran
      cases ran
      exact ⟨rfl, rfl⟩
  -- after a rollback that ran nothing is open
  have closed : ∀ found next call, execute (s.locked k) found s.rows (s.transactions k)
      (.rollback : Statement T U) = some next → DbCall.RollsBack call →
      DbInv obj thrown rows₀ (s.moveCall k next.1 next.2.1 call true (s.unanswered k)) := by
    intro found next call ran still
    obtain ⟨sameRows, isNone⟩ := ends found next ran
    rw [← sameRows] at points
    refine inv.ofCall stands (inv.ofCall_runs ran _ _ _) isMade points ?_
    refine .faulted ?_ ?_ fun _ tx isOpen => ?_
    · simp only [DbState.moveCall, Function.update_self]
    · simp only [DbState.moveCall, Function.update_self]
      exact still
    · simp only [DbState.moveCall, Function.update_self, isNone, reduceCtorEq] at isOpen
  cases choice with
  | runs found =>
    obtain ⟨next, ran, rfl⟩ := Option.map_eq_some_iff.mp taken
    rw [isFaulted]
    exact closed found next _ ran ((later _).of vars)
  | fails =>
    cases taken
    refine inv.ofCall stands (inv.ofCall_fails k _ _ _) isMade points ?_
    refine .faulted ?_ ?_ fun isUnanswered tx isOpen => ?_
    · simp only [DbState.moveCall, Function.update_self]
    · simp only [DbState.moveCall, Function.update_self]
      exact (later _).of vars
    · simp only [DbState.moveCall, Function.update_self, Statement.isCommit, Bool.or_false]
        at isUnanswered
      simp only [DbState.moveCall, Function.update_eq_self] at isOpen
      exact pending isUnanswered tx isOpen
  | runsAndFails found =>
    obtain ⟨next, ran, rfl⟩ := Option.map_eq_some_iff.mp taken
    exact closed found next _ ran ((later _).of vars)

end

/-- A commit that was not answered takes place, or does not. -/
theorem DbInv.settle (inv : DbInv obj thrown rows₀ s) {k : Nat} {commits : Bool}
    {locals : L} {program : Op → DbM L T U ε R}
    (taken : dbStep thrown locals program s (.settle k commits) = some s') :
    DbInv obj thrown rows₀ s' := by
  obtain ⟨order, phases, points, stands⟩ := inv.points
  dsimp only [dbStep] at taken
  split at taken
  · next isFaulted isOpen =>
    rename_i tx
    have isMade : k ∈ s.made := by
      refine (inv.made k).resolve_left ?_
      rw [isOpen]
      rintro ⟨_, isNone⟩
      cases isNone
    have stillRolls : (s.calls k).RollsBack ∧ Unanswered obj thrown s k (phases k) := by
      cases stands k with
      | idle _ _ _ unfaulted _ =>
        rw [isFaulted] at unfaulted
        cases unfaulted
      | sound _ _ _ _ unfaulted _ =>
        rw [isFaulted] at unfaulted
        cases unfaulted
      | faulted _ rollsBack pending => exact ⟨rollsBack, pending⟩
      | returned _ unfaulted =>
        rw [isFaulted] at unfaulted
        cases unfaulted
    -- nothing is open after it
    have here : ∀ rows unanswered phase', Stands obj thrown
        (s.moveCall k rows none (s.calls k) true unanswered) k phase' := by
      intro rows unanswered phase'
      refine .faulted ?_ ?_ fun _ tx' isOpen' => ?_
      · simp only [DbState.moveCall, Function.update_self]
      · simp only [DbState.moveCall, Function.update_self]
        exact stillRolls.1
      · simp only [DbState.moveCall, Function.update_self, reduceCtorEq] at isOpen'
    split at taken
    · split at taken
      · next isUnanswered =>
        cases taken
        obtain ⟨op, vars, view, rest, knows, _, goesOn⟩ := stillRolls.2 isUnanswered tx isOpen
        have ran : execute (s.locked k) [] s.rows (some tx) (.commit : Statement T U) =
            some (s.rows.commit tx, none, .ok ()) := rfl
        obtain ⟨phase', moves, _⟩ := goesOn s.rows knows _ _ _ _ _ ran
        obtain ⟨order', points'⟩ := points.moves moves
        rw [← isOpen] at ran
        exact inv.ofCall stands (inv.ofCall_runs ran _ _ _) isMade points' (here _ _ _)
      · cases taken
    · cases taken
      have ran : execute (s.locked k) [] s.rows (some tx) (.rollback : Statement T U) =
          some (s.rows, none, .ok ()) := rfl
      rw [← isOpen] at ran
      rw [← Function.update_eq_self k phases] at points
      exact inv.ofCall stands (inv.ofCall_runs ran _ _ _) isMade points (here _ _ _)
  · cases taken

variable {locals : L} {program : Op → DbM L T U ε R}

/-- **One step of the machine**, when every program is sound. -/
theorem dbInv_step (sound : ∀ op view, Sound obj thrown op (program op) locals (.called op) none view)
    {a : DbAction Op} (inv : DbInv obj thrown rows₀ s)
    (taken : dbStep thrown locals program s a = some s') : DbInv obj thrown rows₀ s' := by
  cases a with
  | call k op =>
    obtain ⟨order, phases, points, stands⟩ := inv.points
    dsimp only [dbStep] at taken
    split at taken
    · next isIdle =>
      cases taken
      have here := stands k
      cases here with
      | idle _ notMade none_ unfaulted answered =>
        refine inv.ofCall stands ⟨?_, ?_, ?_, ?_, ?_, ?_, ?_⟩ (List.mem_cons_self ..)
          (points.call k op notMade) ?_
        · exact fun _ other => Function.update_of_ne other ..
        · exact fun _ _ => rfl
        · exact fun _ _ => rfl
        · exact fun _ _ => rfl
        · exact fun _ _ _ _ => rfl
        · exact inv.apart
        · exact fun _ => List.mem_cons_of_mem _
        · refine .sound op s.rows (fun _ _ => rfl) ?_ unfaulted answered
          dsimp only
          rw [Function.update_self, none_]
          exact (sound op s.rows).of
      | sound _ _ _ soundHere _ _ =>
        rw [isIdle] at soundHere
        exact soundHere.elim
      | faulted _ rollsBack _ =>
        rw [isIdle] at rollsBack
        exact rollsBack.elim
      | returned isReturned _ =>
        rw [isIdle] at isReturned
        cases isReturned
    · cases taken
  | perform k choice =>
    obtain ⟨order, phases, points, stands⟩ := inv.points
    dsimp only [dbStep] at taken
    split at taken
    · next vars statement rest isWaiting =>
      have isMade : k ∈ s.made := by
        refine (inv.made k).resolve_left ?_
        rw [isWaiting]
        rintro ⟨isIdle, _⟩
        cases isIdle
      cases stands k with
      | idle isIdle _ _ _ _ =>
        rw [isWaiting] at isIdle
        cases isIdle
      | sound op view knows soundHere unfaulted answered =>
        rw [isWaiting] at soundHere
        exact inv.perform_sound points stands isMade knows soundHere unfaulted answered taken
      | faulted isFaulted rollsBack pending =>
        rw [isWaiting] at rollsBack
        exact inv.perform_faulted points stands isMade isFaulted rollsBack pending taken
      | returned isReturned _ =>
        rw [isWaiting] at isReturned
        cases isReturned
    · cases taken
  | ret k =>
    obtain ⟨order, phases, points, stands⟩ := inv.points
    dsimp only [dbStep] at taken
    split at taken
    · next r isEnded =>
      cases taken
      have isMade : k ∈ s.made := by
        refine (inv.made k).resolve_left ?_
        rw [isEnded]
        rintro ⟨isIdle, _⟩
        cases isIdle
      have ofCall : OfCall s k { s with
          calls := Function.update s.calls k .returned
          history := s.history ++ [if s.faulted k then .lost k else .ret k r] } :=
        ⟨fun _ other => Function.update_of_ne other .., fun _ _ => rfl, fun _ _ => rfl,
          fun _ _ => rfl, fun _ _ _ _ => rfl, inv.apart, fun _ isIn => isIn⟩
      cases stands k with
      | idle isIdle _ _ _ _ =>
        rw [isEnded] at isIdle
        cases isIdle
      | sound op view knows soundHere unfaulted answered =>
        rw [isEnded] at soundHere
        rw [unfaulted] at ofCall ⊢
        have here : ∀ phase', Stands obj thrown { s with
            calls := Function.update s.calls k .returned
            history := s.history ++ [.ret k r] } k phase' :=
          fun phase' => .returned (Function.update_self ..) unfaulted
        rcases soundHere with isDone | ⟨isCalled, always⟩
        · exact inv.ofCall stands ofCall isMade (points.ret k op r isDone) (here _)
        · have now := points.effect k op isCalled
          rw [always s.rows] at now
          have ended := now.ret k op r (Function.update_self ..)
          rw [Function.update_idem] at ended
          exact inv.ofCall stands ofCall isMade ended (here _)
      | faulted isFaulted rollsBack pending =>
        rw [isFaulted] at ofCall ⊢
        have ended := points.lost k
        rw [← Function.update_eq_self k phases] at ended
        refine inv.ofCall stands ofCall isMade ended (.faulted isFaulted ?_ pending)
        dsimp only
        rw [Function.update_self]
        trivial
      | returned isReturned _ =>
        rw [isEnded] at isReturned
        cases isReturned
    · cases taken
  | settle k commits => exact inv.settle taken

/-- **Sound programs are linearizable**: in every run, overlapping calls answer as if each took place at
one moment between its call and its return; a call that was told of a failure may have taken place at any
moment after it was made, or not at all. -/
theorem linearizable_of_sound
    (sound : ∀ op view, Sound obj thrown op (program op) locals (.called op) none view)
    {as : List (DbAction Op)} (ran : run (dbStep thrown locals program) (.start rows₀) as = some s) :
    Linearizable obj rows₀ s.history s.rows := by
  have start : DbInv obj thrown rows₀ (.start rows₀ : DbState E L ε R Op) := by
    refine ⟨⟨[], fun _ => .idle, .start, fun k => .idle rfl rfl rfl rfl rfl⟩, ?_, fun k => .inl ⟨rfl, rfl⟩⟩
    exact fun j k id _ isLocked => nomatch isLocked
  have inv := run_keeps (fun s a s' inv taken => dbInv_step sound inv taken) start ran
  obtain ⟨order, phases, points, _⟩ := inv.points
  exact points.linearizable

end

end

end QuietStorage.Lib
