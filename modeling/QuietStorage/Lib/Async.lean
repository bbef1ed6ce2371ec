import Mathlib.Logic.Function.Basic
import QuietStorage.Lib.Run

/-!
# Lib.Async — asynchronous programs on a shared state

An asynchronous function runs without interruption up to its next `await`; while it waits, any other
code may run. `Async σ C A ε α` is such a program: it changes a state of type `σ` synchronously, it
awaits commands of `C` (a command `c` is answered by a value of `A c`, or throws), and it ends with a
value of `α` or throws. It is a monad with exceptions, so a program is written in do notation as its
source is, with `try` and `catch`.

**The machine.** `asyncStep` runs any number of programs as tasks on one state. A task starts and
runs to its first `await`; the command of a waiting task is performed; a task whose command was
answered goes on to its next `await`; and what is outside the programs takes steps of its own. Every
choice (who moves, how a command is answered) is in the label. `advance` is the stretch to the next
`await`, with a rule for each way to build a program (`advance_bind`, `advance_tryCatch`, ..).

**The rules.** A `Discipline` is an invariant, with a preorder that says how the state may grow and
what belongs to each task and is left alone by the others: what a task relies on while it waits, and
guarantees when it acts. `Meets` says that a program keeps the discipline and ends as specified; it
has a rule for each way to build a program (`meets_bind`, `meets_tryCatch`, `meets_send`,
`meets_get_bind`, `meets_modify`). `safe_step` is the step lemma of the machine: when every program
that may be started meets the discipline, so does every step.

**Under a condition.** `restrict` is the machine in which only what is allowed is performed, and
`asyncStep_restrict` takes its invariants to the runs whose every step meets the condition.

**Alone.** `Ends` says how a program may end when nothing else runs, with a rule for each way to
build a program (`ends_bind`, `ends_tryCatch`, `ends_send`, ..).

**Observed.** `observe` runs a program in surroundings that answer each of its commands, knowing
what was answered before, and may change the state while the program waits. It gives what the program
has awaited, with the answers, and how it ends.

**Escapes.** `NeverThrows` and `NeverReturns` say that a program cannot throw, or cannot do anything
else, in whatever surroundings.

Nothing here names a program; the modules above instantiate the commands and the state.
-/

set_option autoImplicit false

namespace QuietStorage.Lib

/-- A program that runs without interruption up to its next `await`. -/
inductive Async (σ C : Type) (A : C → Type) (ε α : Type) where
  | pure (a : α)
  | throw (e : ε)
  /-- A synchronous change of the state; the rest reads the state before it. -/
  | sync (f : σ → σ) (k : σ → Async σ C A ε α)
  /-- The rest goes on with the answer of the command, or with what it threw. -/
  | await (c : C) (k : Except ε (A c) → Async σ C A ε α)

namespace Async

variable {σ C : Type} {A : C → Type} {ε α β : Type}

def bind : Async σ C A ε α → (α → Async σ C A ε β) → Async σ C A ε β
  | .pure a, f => f a
  | .throw e, _ => .throw e
  | .sync g k, f => .sync g fun s => (k s).bind f
  | .await c k, f => .await c fun r => (k r).bind f

/-- `try m catch e => h e`. -/
def tryCatch : Async σ C A ε α → (ε → Async σ C A ε α) → Async σ C A ε α
  | .pure a, _ => .pure a
  | .throw e, h => h e
  | .sync g k, h => .sync g fun s => (k s).tryCatch h
  | .await c k, h => .await c fun r => (k r).tryCatch h

instance : Monad (Async σ C A ε) where
  pure := .pure
  bind := .bind

instance : MonadExceptOf ε (Async σ C A ε) where
  throw := .throw
  tryCatch := .tryCatch

/-- `await` of one command. -/
def send (c : C) : Async σ C A ε (A c) :=
  .await c fun
    | .ok a => .pure a
    | .error e => .throw e

/-- Read the state. -/
def get : Async σ C A ε σ := .sync id .pure

/-- Change the state. -/
def modify (f : σ → σ) : Async σ C A ε Unit := .sync f fun _ => .pure ()

/-- Where a program stands when it does not run: it has ended, or it waits. -/
inductive Stage (σ C : Type) (A : C → Type) (ε α : Type) where
  | done (r : Except ε α)
  | waiting (c : C) (k : Except ε (A c) → Async σ C A ε α)

/-- Run up to the next `await`, or to the end. -/
def advance : Async σ C A ε α → σ → σ × Stage σ C A ε α
  | .pure a, s => (s, .done (.ok a))
  | .throw e, s => (s, .done (.error e))
  | .sync f k, s => (k s).advance (f s)
  | .await c k, s => (s, .waiting c k)

end Async

open Async

/-! ## Up to the next `await` -/

section
variable {σ C : Type} {A : C → Type} {ε α β : Type} (s : σ)

@[simp] theorem advance_pure (a : α) :
    (Pure.pure a : Async σ C A ε α).advance s = (s, .done (.ok a)) := rfl

@[simp] theorem advance_throw (e : ε) :
    (MonadExcept.throw e : Async σ C A ε α).advance s = (s, .done (.error e)) := rfl

@[simp] theorem advance_get : (get : Async σ C A ε σ).advance s = (s, .done (.ok s)) := rfl

@[simp] theorem advance_modify (f : σ → σ) :
    (modify f : Async σ C A ε Unit).advance s = (f s, .done (.ok ())) := rfl

@[simp] theorem advance_send (c : C) :
    (send c : Async σ C A ε (A c)).advance s =
      (s, .waiting c fun
        | .ok a => .pure a
        | .error e => .throw e) := rfl

@[simp] theorem advance_ofExcept (r : Except ε α) :
    (MonadExcept.ofExcept r : Async σ C A ε α).advance s = (s, .done r) := by
  cases r <;> rfl

/-- The second program begins where the first has returned, and follows it where it waits. -/
@[simp] theorem advance_bind (m : Async σ C A ε α) (f : α → Async σ C A ε β) :
    (m >>= f).advance s =
      match m.advance s with
      | (s', .done (.ok a)) => (f a).advance s'
      | (s', .done (.error e)) => (s', .done (.error e))
      | (s', .waiting c k) => (s', .waiting c fun r => k r >>= f) := by
  induction m generalizing s with
  | pure a => rfl
  | throw e => rfl
  | sync g k ih => exact ih s (g s)
  | await c k => rfl

/-- The handler begins where the program has thrown, and follows it where it waits. -/
@[simp] theorem advance_tryCatch (m : Async σ C A ε α) (h : ε → Async σ C A ε α) :
    (MonadExcept.tryCatch m h : Async σ C A ε α).advance s =
      match m.advance s with
      | (s', .done (.ok a)) => (s', .done (.ok a))
      | (s', .done (.error e)) => (h e).advance s'
      | (s', .waiting c k) => (s', .waiting c fun r => MonadExcept.tryCatch (k r) h) := by
  induction m generalizing s with
  | pure a => rfl
  | throw e => rfl
  | sync g k ih => exact ih s (g s)
  | await c k => rfl

end

/-! ## The machine -/

section
variable {σ C : Type} {A : C → Type} {ε : Type}

/-- A task between two moves. -/
inductive AsyncTask (σ C : Type) (A : C → Type) (ε : Type) where
  | idle
  | waiting (c : C) (k : Except ε (A c) → Async σ C A ε Unit)
  | answered (c : C) (r : Except ε (A c)) (k : Except ε (A c) → Async σ C A ε Unit)

/-- The shared state and the tasks on it. -/
structure AsyncState (σ C : Type) (A : C → Type) (ε : Type) where
  world : σ
  tasks : Nat → AsyncTask σ C A ε

namespace AsyncState

/-- No task is under way. -/
def start (world : σ) : AsyncState σ C A ε where
  world := world
  tasks := fun _ => .idle

/-- The task runs the program up to its next `await`. -/
def runTask (m : AsyncState σ C A ε) (t : Nat) (p : Async σ C A ε Unit) : AsyncState σ C A ε where
  world := (p.advance m.world).1
  tasks := Function.update m.tasks t
    (match (p.advance m.world).2 with
      | .done _ => .idle
      | .waiting c k => .waiting c k)

end AsyncState

/-- A move of the machine: `Call` are the programs that may be started (a program may know its task),
`Choice` are the ways to answer a command, and `Event` is what happens outside. -/
inductive Move (Call Choice Event : Type) where
  | start (t : Nat) (call : Call)
  | perform (t : Nat) (choice : Choice)
  | resume (t : Nat)
  | outside (event : Event)

variable {Call Choice Event : Type} (program : Nat → Call → Async σ C A ε Unit)
  (perform : σ → (c : C) → Choice → Option (σ × Except ε (A c)))
  (outside : σ → Event → Option σ)

/-- One move, `none` if it is not enabled. -/
def asyncStep (m : AsyncState σ C A ε) : Move Call Choice Event → Option (AsyncState σ C A ε)
  | .start t call =>
    match m.tasks t with
    | .idle => some (m.runTask t (program t call))
    | _ => none
  | .perform t choice =>
    match m.tasks t with
    | .waiting c k =>
      (perform m.world c choice).map fun next =>
        { world := next.1, tasks := Function.update m.tasks t (.answered c next.2 k) }
    | _ => none
  | .resume t =>
    match m.tasks t with
    | .answered _ r k => some (m.runTask t (k r))
    | _ => none
  | .outside event => (outside m.world event).map fun world => { m with world := world }

/-- The move is one of the task, or outside of all. -/
def Move.OfTask (t : Nat) : Move Call Choice Event → Prop
  | .start t' _ => t' = t
  | .perform t' _ => t' = t
  | .resume t' => t' = t
  | .outside _ => True

/-- It leaves the other tasks where they are. -/
theorem asyncStep_tasks_of_ne {m m' : AsyncState σ C A ε} {move : Move Call Choice Event} {t t' : Nat}
    (ofTask : move.OfTask t) (other : t' ≠ t)
    (taken : asyncStep program perform outside m move = some m') : m'.tasks t' = m.tasks t' := by
  cases move with
  | start t₁ call =>
    cases ofTask
    dsimp only [asyncStep] at taken
    split at taken
    · cases taken
      exact Function.update_of_ne other ..
    · cases taken
  | perform t₁ choice =>
    cases ofTask
    dsimp only [asyncStep] at taken
    split at taken
    · obtain ⟨next, _, rfl⟩ := Option.map_eq_some_iff.mp taken
      exact Function.update_of_ne other ..
    · cases taken
  | resume t₁ =>
    cases ofTask
    dsimp only [asyncStep] at taken
    split at taken
    · cases taken
      exact Function.update_of_ne other ..
    · cases taken
  | outside event =>
    obtain ⟨world, _, rfl⟩ := Option.map_eq_some_iff.mp taken
    rfl

end

/-! ## The rules -/

/-- An invariant, how the state may grow, and what belongs to each task: `Keeps t` says that what is
task `t`'s own was not touched, and `Idle t` that the task has nothing of its own. -/
structure Discipline (σ : Type) where
  Inv : σ → Prop
  Grows : σ → σ → Prop
  Keeps : Nat → σ → σ → Prop
  Idle : Nat → σ → Prop
  refl : ∀ s, Grows s s
  trans : ∀ {s m s'}, Grows s m → Grows m s' → Grows s s'
  keeps_refl : ∀ t s, Keeps t s s
  keeps_trans : ∀ {t s m s'}, Keeps t s m → Keeps t m s' → Keeps t s s'
  idle_keeps : ∀ {t s s'}, Idle t s → Keeps t s s' → Idle t s'

namespace Discipline

variable {σ : Type} (D : Discipline σ)

/-- What the other tasks do, as task `t` sees it. -/
structure Rely (t : Nat) (s s' : σ) : Prop where
  grows : D.Grows s s'
  keeps : D.Keeps t s s'

/-- What task `t` may do. -/
structure Acts (t : Nat) (s s' : σ) : Prop where
  grows : D.Grows s s'
  keeps : ∀ t', t' ≠ t → D.Keeps t' s s'

/-- A discipline in which nothing belongs to a task. -/
def uniform (Inv : σ → Prop) (Grows : σ → σ → Prop) (refl : ∀ s, Grows s s)
    (trans : ∀ {s m s'}, Grows s m → Grows m s' → Grows s s') : Discipline σ where
  Inv := Inv
  Grows := Grows
  Keeps := fun _ _ _ => True
  Idle := fun _ _ => True
  refl := refl
  trans := trans
  keeps_refl := fun _ _ => trivial
  keeps_trans := fun _ _ => trivial
  idle_keeps := fun _ _ => trivial

variable {D} {t : Nat} {s m s' : σ}

theorem Rely.refl (t : Nat) (s : σ) : D.Rely t s s := ⟨D.refl s, D.keeps_refl t s⟩

theorem Rely.trans (first : D.Rely t s m) (second : D.Rely t m s') : D.Rely t s s' :=
  ⟨D.trans first.grows second.grows, D.keeps_trans first.keeps second.keeps⟩

theorem Acts.refl (t : Nat) (s : σ) : D.Acts t s s := ⟨D.refl s, fun t' _ => D.keeps_refl t' s⟩

theorem Acts.trans (first : D.Acts t s m) (second : D.Acts t m s') : D.Acts t s s' :=
  ⟨D.trans first.grows second.grows,
    fun t' other => D.keeps_trans (first.keeps t' other) (second.keeps t' other)⟩

/-- What one task does, another relies on. -/
theorem Acts.rely {t' : Nat} (acts : D.Acts t s s') (other : t' ≠ t) : D.Rely t' s s' :=
  ⟨acts.grows, acts.keeps t' other⟩

end Discipline

section
variable {σ C : Type} {A : C → Type} {ε α β Choice : Type} (D : Discipline σ) (t : Nat)
  (perform : σ → (c : C) → Choice → Option (σ × Except ε (A c)))

/-- What a task that awaits `c` may rely on and has to guarantee. -/
def MeetsAwait (c : C) (rest : Except ε (A c) → σ → Prop) (s : σ) : Prop :=
  ∀ s₁, D.Rely t s s₁ → D.Inv s₁ → ∀ choice s₂ r, perform s₁ c choice = some (s₂, r) →
    D.Inv s₂ ∧ D.Acts t s₁ s₂ ∧ ∀ s₃, D.Rely t s₂ s₃ → D.Inv s₃ → rest r s₃

/-- **The program keeps the discipline** when task `t` runs it from `s`, and ends in a state and with
a result as specified by `Q`. -/
def Meets (Q : σ → Except ε α → Prop) : Async σ C A ε α → σ → Prop
  | .pure a, s => Q s (.ok a)
  | .throw e, s => Q s (.error e)
  | .sync f k, s => D.Inv (f s) ∧ D.Acts t s (f s) ∧ Meets Q (k s) (f s)
  | .await c k, s => MeetsAwait D t perform c (fun r => Meets Q (k r)) s

variable {D t perform} {s : σ}

theorem MeetsAwait.imp {c : C} {rest rest' : Except ε (A c) → σ → Prop}
    (meets : MeetsAwait D t perform c rest s)
    (weaker : ∀ r s', D.Inv s' → D.Grows s s' → rest r s' → rest' r s') :
    MeetsAwait D t perform c rest' s := by
  intro s₁ rely inv choice s₂ r performed
  obtain ⟨inv₂, acts, later⟩ := meets s₁ rely inv choice s₂ r performed
  refine ⟨inv₂, acts, fun s₃ rely₃ inv₃ => ?_⟩
  have grown := D.trans rely.grows (D.trans acts.grows rely₃.grows)
  exact weaker r s₃ inv₃ grown (later s₃ rely₃ inv₃)

/-- A weaker specification. -/
theorem Meets.imp {Q Q' : σ → Except ε α → Prop} {m : Async σ C A ε α} (inv : D.Inv s)
    (meets : Meets D t perform Q m s)
    (weaker : ∀ s' r, D.Inv s' → D.Grows s s' → Q s' r → Q' s' r) : Meets D t perform Q' m s := by
  induction m generalizing s with
  | pure a => exact weaker s _ inv (D.refl s) meets
  | throw e => exact weaker s _ inv (D.refl s) meets
  | sync f k ih =>
    obtain ⟨inv', acts, rest⟩ := meets
    refine ⟨inv', acts, ih s inv' rest fun s' r inv grown => ?_⟩
    exact weaker s' r inv (D.trans acts.grows grown)
  | await c k ih =>
    refine MeetsAwait.imp meets fun r s' inv' grown rest => ?_
    exact ih r inv' rest fun s'' r inv grown' => weaker s'' r inv (D.trans grown grown')

/-- One program after another. -/
theorem meets_bind {Q₁ : σ → Except ε α → Prop} {Q : σ → Except ε β → Prop}
    {m : Async σ C A ε α} {f : α → Async σ C A ε β} (inv : D.Inv s)
    (first : Meets D t perform Q₁ m s)
    (next : ∀ s' a, D.Inv s' → D.Grows s s' → Q₁ s' (.ok a) → Meets D t perform Q (f a) s')
    (thrown : ∀ s' e, D.Inv s' → D.Grows s s' → Q₁ s' (.error e) → Q s' (.error e)) :
    Meets D t perform Q (m >>= f) s := by
  induction m generalizing s with
  | pure a => exact next s a inv (D.refl s) first
  | throw e => exact thrown s e inv (D.refl s) first
  | sync g k ih =>
    obtain ⟨inv', acts, rest⟩ := first
    refine ⟨inv', acts, ih s inv' rest ?_ ?_⟩
    · exact fun s' a inv grown => next s' a inv (D.trans acts.grows grown)
    · exact fun s' e inv grown => thrown s' e inv (D.trans acts.grows grown)
  | await c k ih =>
    refine MeetsAwait.imp first fun r s' inv' grown rest => ?_
    exact ih r inv' rest (fun s'' a inv grown' => next s'' a inv (D.trans grown grown'))
      fun s'' e inv grown' => thrown s'' e inv (D.trans grown grown')

/-- A program with a handler. -/
theorem meets_tryCatch {Q₁ Q : σ → Except ε α → Prop} {m : Async σ C A ε α}
    {h : ε → Async σ C A ε α} (inv : D.Inv s) (body : Meets D t perform Q₁ m s)
    (ended : ∀ s' a, D.Inv s' → D.Grows s s' → Q₁ s' (.ok a) → Q s' (.ok a))
    (caught : ∀ s' e, D.Inv s' → D.Grows s s' → Q₁ s' (.error e) →
      Meets D t perform Q (h e) s') :
    Meets D t perform Q (MonadExcept.tryCatch m h) s := by
  induction m generalizing s with
  | pure a => exact ended s a inv (D.refl s) body
  | throw e => exact caught s e inv (D.refl s) body
  | sync g k ih =>
    obtain ⟨inv', acts, rest⟩ := body
    refine ⟨inv', acts, ih s inv' rest ?_ ?_⟩
    · exact fun s' a inv grown => ended s' a inv (D.trans acts.grows grown)
    · exact fun s' e inv grown => caught s' e inv (D.trans acts.grows grown)
  | await c k ih =>
    refine MeetsAwait.imp body fun r s' inv' grown rest => ?_
    exact ih r inv' rest (fun s'' a inv grown' => ended s'' a inv (D.trans grown grown'))
      fun s'' e inv grown' => caught s'' e inv (D.trans grown grown')

/-- A command: it is performed in some later state, and the program goes on in a later one. -/
theorem meets_send {c : C} {Q : σ → Except ε (A c) → Prop}
    (performs : MeetsAwait D t perform c (fun r s' => Q s' r) s) :
    Meets D t perform Q (send c : Async σ C A ε (A c)) s := by
  refine MeetsAwait.imp performs fun r s' _ _ ended => ?_
  cases r with
  | ok a => exact ended
  | error e => exact ended

theorem meets_ofExcept {Q : σ → Except ε α → Prop} {r : Except ε α} (ended : Q s r) :
    Meets D t perform Q (MonadExcept.ofExcept r : Async σ C A ε α) s := by
  cases r with
  | ok a => exact ended
  | error e => exact ended

/-- A library function, and what follows it if it returns. -/
theorem meets_ofExcept_bind {Q : σ → Except ε β → Prop} {r : Except ε α} {f : α → Async σ C A ε β}
    (next : ∀ a, r = .ok a → Meets D t perform Q (f a) s)
    (thrown : ∀ e, r = .error e → Q s (.error e)) :
    Meets D t perform Q (MonadExcept.ofExcept r >>= f) s := by
  cases r with
  | ok a => exact next a rfl
  | error e => exact thrown e rfl

/-- A library function, with one error for all that it throws. -/
theorem meets_ofExcept_catch {Q : σ → Except ε α → Prop} {r : Except ε α} {e : ε}
    (ended : ∀ a, r = .ok a → Q s (.ok a)) (thrown : Q s (.error e)) :
    Meets D t perform Q
      (MonadExcept.tryCatch (MonadExcept.ofExcept r : Async σ C A ε α) fun _ => MonadExcept.throw e)
      s := by
  cases r with
  | ok a => exact ended a rfl
  | error _ => exact thrown

theorem meets_ofExcept_catch_bind {Q : σ → Except ε β → Prop} {r : Except ε α} {e : ε}
    {f : α → Async σ C A ε β} (next : ∀ a, r = .ok a → Meets D t perform Q (f a) s)
    (thrown : Q s (.error e)) :
    Meets D t perform Q
      (MonadExcept.tryCatch (MonadExcept.ofExcept r) (fun _ => MonadExcept.throw e) >>= f) s := by
  cases r with
  | ok a => exact next a rfl
  | error _ => exact thrown

/-- A program that reads the state and goes on at once. -/
theorem meets_get_bind {Q : σ → Except ε β → Prop} {f : σ → Async σ C A ε β} (inv : D.Inv s)
    (next : Meets D t perform Q (f s) s) : Meets D t perform Q (get >>= f) s :=
  ⟨inv, .refl t s, next⟩

/-- A program that changes the state and goes on at once. -/
theorem meets_modify_bind {Q : σ → Except ε β → Prop} {f : σ → σ} {k : Unit → Async σ C A ε β}
    (inv : D.Inv (f s)) (acts : D.Acts t s (f s)) (next : Meets D t perform Q (k ()) (f s)) :
    Meets D t perform Q (modify f >>= k) s :=
  ⟨inv, acts, next⟩

theorem meets_modify {Q : σ → Except ε Unit → Prop} {f : σ → σ} (inv : D.Inv (f s))
    (acts : D.Acts t s (f s)) (ended : Q (f s) (.ok ())) :
    Meets D t perform Q (modify f : Async σ C A ε Unit) s :=
  ⟨inv, acts, ended⟩

end

/-! ## The machine keeps the discipline -/

section
variable {σ C : Type} {A : C → Type} {ε Call Choice Event : Type} (D : Discipline σ)
  (perform : σ → (c : C) → Choice → Option (σ × Except ε (A c)))

/-- The program keeps the discipline, and leaves its task with nothing of its own. -/
def Finishes (t : Nat) (p : Async σ C A ε Unit) (s : σ) : Prop :=
  Meets D t perform (fun s' _ => D.Idle t s') p s

/-- The task keeps the discipline from here on. -/
def TaskMeets (t : Nat) (s : σ) : AsyncTask σ C A ε → Prop
  | .idle => D.Idle t s
  | .waiting c k => MeetsAwait D t perform c (fun r => Finishes D perform t (k r)) s
  | .answered _ r k => ∀ s', D.Rely t s s' → D.Inv s' → Finishes D perform t (k r) s'

/-- The invariant holds, and every task keeps the discipline. -/
structure Safe (m : AsyncState σ C A ε) : Prop where
  inv : D.Inv m.world
  tasks : ∀ t, TaskMeets D perform t m.world (m.tasks t)

variable {D perform}

theorem TaskMeets.mono {t : Nat} {s s' : σ} {task : AsyncTask σ C A ε}
    (meets : TaskMeets D perform t s task) (rely : D.Rely t s s') :
    TaskMeets D perform t s' task := by
  cases task with
  | idle => exact D.idle_keeps meets rely.keeps
  | waiting c k => exact fun s₁ rely₁ => meets s₁ (rely.trans rely₁)
  | answered c r k => exact fun s₁ rely₁ => meets s₁ (rely.trans rely₁)

theorem safe_start {s : σ} (inv : D.Inv s) (idle : ∀ t, D.Idle t s) :
    Safe D perform (.start s) :=
  ⟨inv, idle⟩

/-- What a program that keeps the discipline has done at its next `await`. -/
theorem advance_meets {t : Nat} {p : Async σ C A ε Unit} {s : σ} (inv : D.Inv s)
    (meets : Finishes D perform t p s) :
    D.Inv (p.advance s).1 ∧ D.Acts t s (p.advance s).1 ∧
      TaskMeets D perform t (p.advance s).1
        (match (p.advance s).2 with
          | .done _ => .idle
          | .waiting c k => .waiting c k) := by
  induction p generalizing s with
  | pure a => exact ⟨inv, .refl t s, meets⟩
  | throw e => exact ⟨inv, .refl t s, meets⟩
  | sync f k ih =>
    obtain ⟨inv', acts, rest⟩ := meets
    obtain ⟨inv'', acts', task⟩ := ih s inv' rest
    exact ⟨inv'', acts.trans acts', task⟩
  | await c k => exact ⟨inv, .refl t s, meets⟩

/-- One task moves and the state grows; the others wait on. -/
theorem Safe.update {m : AsyncState σ C A ε} (safe : Safe D perform m) (t : Nat) {s' : σ}
    {task : AsyncTask σ C A ε} (inv : D.Inv s') (acts : D.Acts t m.world s')
    (meets : TaskMeets D perform t s' task) :
    Safe D perform ⟨s', Function.update m.tasks t task⟩ := by
  refine ⟨inv, fun t' => ?_⟩
  by_cases same : t' = t
  · rw [same]
    simpa only [Function.update_self] using meets
  · simpa only [Function.update_of_ne same] using (safe.tasks t').mono (acts.rely same)

theorem Safe.runTask {m : AsyncState σ C A ε} (safe : Safe D perform m) (t : Nat)
    {p : Async σ C A ε Unit} (meets : Finishes D perform t p m.world) :
    Safe D perform (m.runTask t p) ∧ D.Grows m.world (m.runTask t p).world := by
  obtain ⟨inv, acts, task⟩ := advance_meets safe.inv meets
  exact ⟨safe.update t inv acts task, acts.grows⟩

/-- **The step lemma**: when every program that may be started keeps the discipline, and what is
outside does, every move keeps it and lets the state grow. `S` is a condition on what is started. -/
theorem safe_step {program : Nat → Call → Async σ C A ε Unit} {outside : σ → Event → Option σ}
    {S : σ → Nat → Call → Prop}
    (starts : ∀ t call s, D.Inv s → D.Idle t s → S s t call →
      Finishes D perform t (program t call) s)
    (moves : ∀ s event s', D.Inv s → outside s event = some s' →
      D.Inv s' ∧ D.Grows s s' ∧ ∀ t, D.Keeps t s s')
    {m m' : AsyncState σ C A ε} {move : Move Call Choice Event} (safe : Safe D perform m)
    (condition : ∀ t call, move = .start t call → S m.world t call)
    (taken : asyncStep program perform outside m move = some m') :
    Safe D perform m' ∧ D.Grows m.world m'.world := by
  cases move with
  | start t call =>
    dsimp only [asyncStep] at taken
    split at taken
    · next idle =>
      cases taken
      have meets := safe.tasks t
      rw [idle] at meets
      exact safe.runTask t (starts t call m.world safe.inv meets (condition t call rfl))
    · cases taken
  | perform t choice =>
    dsimp only [asyncStep] at taken
    split at taken
    · next c k waiting =>
      obtain ⟨⟨s₂, r⟩, performed, rfl⟩ := Option.map_eq_some_iff.mp taken
      have meets := safe.tasks t
      rw [waiting] at meets
      obtain ⟨inv, acts, later⟩ := meets m.world (.refl t _) safe.inv choice s₂ r performed
      exact ⟨safe.update t inv acts later, acts.grows⟩
    · cases taken
  | resume t =>
    dsimp only [asyncStep] at taken
    split at taken
    · next c r k answered =>
      cases taken
      have meets := safe.tasks t
      rw [answered] at meets
      exact safe.runTask t (meets m.world (.refl t _) safe.inv)
    · cases taken
  | outside event =>
    obtain ⟨s', moved, rfl⟩ := Option.map_eq_some_iff.mp taken
    obtain ⟨inv, grown, keeps⟩ := moves m.world event s' safe.inv moved
    exact ⟨⟨inv, fun t => (safe.tasks t).mono ⟨grown, keeps t⟩⟩, grown⟩

end

/-! ## Under a condition -/

section
variable {σ C : Type} {A : C → Type} {ε Call Choice Event : Type}

open Classical in
/-- Commands are performed only where they are allowed. -/
noncomputable def restrict (Allowed : σ → C → Prop)
    (perform : σ → (c : C) → Choice → Option (σ × Except ε (A c))) :
    σ → (c : C) → Choice → Option (σ × Except ε (A c)) :=
  fun s c choice => if Allowed s c then perform s c choice else none

theorem restrict_eq_some {Allowed : σ → C → Prop}
    {perform : σ → (c : C) → Choice → Option (σ × Except ε (A c))} {s : σ} {c : C} {choice : Choice}
    {next : σ × Except ε (A c)} (performed : restrict Allowed perform s c choice = some next) :
    Allowed s c ∧ perform s c choice = some next := by
  rw [restrict] at performed
  split at performed
  · next allowed => exact ⟨allowed, performed⟩
  · cases performed

/-- A move that performs nothing but what is allowed is a move of the machine in which nothing else is
performed: what is proved about that one holds along every run under the condition. -/
theorem asyncStep_restrict {program : Nat → Call → Async σ C A ε Unit}
    {perform : σ → (c : C) → Choice → Option (σ × Except ε (A c))} {outside : σ → Event → Option σ}
    {Allowed : σ → C → Prop} {m : AsyncState σ C A ε} {move : Move Call Choice Event}
    (allowed : ∀ t choice c k, move = .perform t choice → m.tasks t = .waiting c k →
      Allowed m.world c) :
    asyncStep program (restrict Allowed perform) outside m move =
      asyncStep program perform outside m move := by
  cases move with
  | perform t choice =>
    dsimp only [asyncStep]
    split
    · next c k waiting => rw [restrict, if_pos (allowed t choice c k rfl waiting)]
    · rfl
  | start t call => rfl
  | resume t => rfl
  | outside event => rfl

end

/-! ## A program alone -/

section
variable {σ C : Type} {A : C → Type} {ε α β Choice : Type}
  (perform : σ → (c : C) → Choice → Option (σ × Except ε (A c)))

/-- The program, run alone from `s`, can end in `s'` with the result `r`: each of its commands is
performed at once, in one of the ways that it can be answered. -/
def Ends : Async σ C A ε α → σ → σ → Except ε α → Prop
  | .pure a, s, s', r => s' = s ∧ r = .ok a
  | .throw e, s, s', r => s' = s ∧ r = .error e
  | .sync f k, s, s', r => Ends (k s) (f s) s' r
  | .await c k, s, s', r =>
    ∃ choice s₁ answer, perform s c choice = some (s₁, answer) ∧ Ends (k answer) s₁ s' r

variable {perform} {s s' : σ}

@[simp] theorem ends_pure {a : α} {r : Except ε α} :
    Ends perform (Pure.pure a : Async σ C A ε α) s s' r ↔ s' = s ∧ r = .ok a := Iff.rfl

@[simp] theorem ends_throw {e : ε} {r : Except ε α} :
    Ends perform (MonadExcept.throw e : Async σ C A ε α) s s' r ↔ s' = s ∧ r = .error e := Iff.rfl

theorem ends_get_bind {f : σ → Async σ C A ε α} {r : Except ε α} :
    Ends perform (get >>= f) s s' r ↔ Ends perform (f s) s s' r := Iff.rfl

theorem ends_send {c : C} {r : Except ε (A c)} :
    Ends perform (send c : Async σ C A ε (A c)) s s' r ↔
      ∃ choice, perform s c choice = some (s', r) := by
  constructor
  · rintro ⟨choice, s₁, answer, performed, ended⟩
    cases answer with
    | ok a => obtain ⟨rfl, rfl⟩ := ended; exact ⟨choice, performed⟩
    | error e => obtain ⟨rfl, rfl⟩ := ended; exact ⟨choice, performed⟩
  · rintro ⟨choice, performed⟩
    refine ⟨choice, s', r, performed, ?_⟩
    cases r with
    | ok a => exact ⟨rfl, rfl⟩
    | error e => exact ⟨rfl, rfl⟩

/-- One program after another: the second starts where the first ended, or the first throws. -/
theorem ends_bind {m : Async σ C A ε α} {f : α → Async σ C A ε β} {r : Except ε β} :
    Ends perform (m >>= f) s s' r ↔
      (∃ s₁ a, Ends perform m s s₁ (.ok a) ∧ Ends perform (f a) s₁ s' r) ∨
        ∃ e, Ends perform m s s' (.error e) ∧ r = .error e := by
  induction m generalizing s with
  | pure a =>
    constructor
    · exact fun ended => .inl ⟨s, a, ⟨rfl, rfl⟩, ended⟩
    · rintro (⟨s₁, a', ⟨rfl, isOk⟩, ended⟩ | ⟨e, ⟨_, isError⟩, _⟩)
      · cases isOk
        exact ended
      · cases isError
  | throw e =>
    constructor
    · rintro ⟨rfl, rfl⟩
      exact .inr ⟨e, ⟨rfl, rfl⟩, rfl⟩
    · rintro (⟨s₁, a', ⟨_, isOk⟩, _⟩ | ⟨e', ⟨rfl, isError⟩, rfl⟩)
      · cases isOk
      · cases isError
        exact ⟨rfl, rfl⟩
  | sync g k ih => exact ih s
  | await c k ih =>
    constructor
    · rintro ⟨choice, s₁, answer, performed, ended⟩
      rcases (ih answer).mp ended with ⟨s₂, a, first, rest⟩ | ⟨e, first, thrown⟩
      · exact .inl ⟨s₂, a, ⟨choice, s₁, answer, performed, first⟩, rest⟩
      · exact .inr ⟨e, ⟨choice, s₁, answer, performed, first⟩, thrown⟩
    · rintro (⟨s₂, a, ⟨choice, s₁, answer, performed, first⟩, rest⟩ |
        ⟨e, ⟨choice, s₁, answer, performed, first⟩, thrown⟩)
      · exact ⟨choice, s₁, answer, performed, (ih answer).mpr (.inl ⟨s₂, a, first, rest⟩)⟩
      · exact ⟨choice, s₁, answer, performed, (ih answer).mpr (.inr ⟨e, first, thrown⟩)⟩

/-- A program with a handler: it ends well, or the handler starts where it threw. -/
theorem ends_tryCatch {m : Async σ C A ε α} {h : ε → Async σ C A ε α} {r : Except ε α} :
    Ends perform (MonadExcept.tryCatch m h) s s' r ↔
      (∃ a, Ends perform m s s' (.ok a) ∧ r = .ok a) ∨
        ∃ s₁ e, Ends perform m s s₁ (.error e) ∧ Ends perform (h e) s₁ s' r := by
  induction m generalizing s with
  | pure a =>
    constructor
    · rintro ⟨rfl, rfl⟩
      exact .inl ⟨a, ⟨rfl, rfl⟩, rfl⟩
    · rintro (⟨a', ⟨rfl, isOk⟩, rfl⟩ | ⟨s₁, e, ⟨_, isError⟩, _⟩)
      · cases isOk
        exact ⟨rfl, rfl⟩
      · cases isError
  | throw e =>
    constructor
    · exact fun ended => .inr ⟨s, e, ⟨rfl, rfl⟩, ended⟩
    · rintro (⟨a', ⟨_, isOk⟩, _⟩ | ⟨s₁, e', ⟨rfl, isError⟩, ended⟩)
      · cases isOk
      · cases isError
        exact ended
  | sync g k ih => exact ih s
  | await c k ih =>
    constructor
    · rintro ⟨choice, s₁, answer, performed, ended⟩
      rcases (ih answer).mp ended with ⟨a, first, isOk⟩ | ⟨s₂, e, first, caught⟩
      · exact .inl ⟨a, ⟨choice, s₁, answer, performed, first⟩, isOk⟩
      · exact .inr ⟨s₂, e, ⟨choice, s₁, answer, performed, first⟩, caught⟩
    · rintro (⟨a, ⟨choice, s₁, answer, performed, first⟩, isOk⟩ |
        ⟨s₂, e, ⟨choice, s₁, answer, performed, first⟩, caught⟩)
      · exact ⟨choice, s₁, answer, performed, (ih answer).mpr (.inl ⟨a, first, isOk⟩)⟩
      · exact ⟨choice, s₁, answer, performed, (ih answer).mpr (.inr ⟨s₂, e, first, caught⟩)⟩

/-- `s₁` and `r₁` are the only way that the program ends. -/
def EndsIn (perform : σ → (c : C) → Choice → Option (σ × Except ε (A c))) (m : Async σ C A ε α)
    (s s₁ : σ) (r₁ : Except ε α) : Prop :=
  ∀ s' r, Ends perform m s s' r ↔ s' = s₁ ∧ r = r₁

namespace EndsIn

variable {m : Async σ C A ε α} {s₁ s₂ : σ}

theorem ends {r : Except ε α} (only : EndsIn perform m s s₁ r) : Ends perform m s s₁ r :=
  (only s₁ r).mpr ⟨rfl, rfl⟩

/-- What follows a program that ends in one way only. -/
theorem bind_ends {f : α → Async σ C A ε β} {a : α} {r : Except ε β}
    (first : EndsIn perform m s s₁ (.ok a)) :
    Ends perform (m >>= f) s s' r ↔ Ends perform (f a) s₁ s' r := by
  rw [ends_bind]
  constructor
  · rintro (⟨s₃, a', ended, later⟩ | ⟨e, ended, _⟩)
    · obtain ⟨rfl, isOk⟩ := (first _ _).mp ended
      cases isOk
      exact later
    · cases ((first _ _).mp ended).2
  · exact fun later => .inl ⟨s₁, a, first.ends, later⟩

theorem bind {f : α → Async σ C A ε β} {a : α} {r : Except ε β}
    (first : EndsIn perform m s s₁ (.ok a)) (rest : EndsIn perform (f a) s₁ s₂ r) :
    EndsIn perform (m >>= f) s s₂ r :=
  fun s' r' => first.bind_ends.trans (rest s' r')

theorem bind_error {f : α → Async σ C A ε β} {e : ε} (first : EndsIn perform m s s₁ (.error e)) :
    EndsIn perform (m >>= f) s s₁ (.error e) := by
  intro s' r'
  rw [ends_bind]
  constructor
  · rintro (⟨s₃, a', ended, _⟩ | ⟨e', ended, rfl⟩)
    · cases ((first _ _).mp ended).2
    · obtain ⟨rfl, isError⟩ := (first _ _).mp ended
      cases isError
      exact ⟨rfl, rfl⟩
  · rintro ⟨rfl, rfl⟩
    exact .inr ⟨e, first.ends, rfl⟩

end EndsIn

theorem endsIn_ofExcept {r : Except ε α} :
    EndsIn perform (MonadExcept.ofExcept r : Async σ C A ε α) s s r := by
  intro s' r'
  cases r with
  | ok a => exact Iff.rfl
  | error e => exact Iff.rfl

/-- A function that may throw, and what follows it. -/
theorem ends_ofExcept_bind {x : Except ε α} {f : α → Async σ C A ε β} {r : Except ε β} :
    Ends perform (MonadExcept.ofExcept x >>= f) s s' r ↔
      (∃ e, x = .error e ∧ s' = s ∧ r = .error e) ∨
        ∃ a, x = .ok a ∧ Ends perform (f a) s s' r := by
  cases x with
  | ok a =>
    constructor
    · exact fun ended => .inr ⟨a, rfl, ended⟩
    · rintro (⟨e, isError, _⟩ | ⟨a', isOk, ended⟩)
      · cases isError
      · cases isOk
        exact ended
  | error e =>
    constructor
    · exact fun ended => .inl ⟨e, rfl, ended.1, ended.2⟩
    · rintro (⟨e', isError, ended⟩ | ⟨a, isOk, _⟩)
      · cases isError
        exact ended
      · cases isOk

/-- Alone, the program ends from every state. -/
def CanEnd (perform : σ → (c : C) → Choice → Option (σ × Except ε (A c))) (m : Async σ C A ε α) :
    Prop :=
  ∀ s, ∃ s' r, Ends perform m s s' r

theorem canEnd_pure (a : α) : CanEnd perform (Pure.pure a : Async σ C A ε α) :=
  fun s => ⟨s, .ok a, rfl, rfl⟩

theorem canEnd_bind {m : Async σ C A ε α} {f : α → Async σ C A ε β} (first : CanEnd perform m)
    (next : ∀ a, CanEnd perform (f a)) : CanEnd perform (m >>= f) := by
  intro s
  obtain ⟨s₁, r, ended⟩ := first s
  cases r with
  | ok a =>
    obtain ⟨s₂, r, later⟩ := next a s₁
    exact ⟨s₂, r, ends_bind.mpr (.inl ⟨s₁, a, ended, later⟩)⟩
  | error e => exact ⟨s₁, .error e, ends_bind.mpr (.inr ⟨e, ended, rfl⟩)⟩

theorem canEnd_tryCatch {m : Async σ C A ε α} {h : ε → Async σ C A ε α} (first : CanEnd perform m)
    (caught : ∀ e, CanEnd perform (h e)) : CanEnd perform (MonadExcept.tryCatch m h) := by
  intro s
  obtain ⟨s₁, r, ended⟩ := first s
  cases r with
  | ok a => exact ⟨s₁, .ok a, ends_tryCatch.mpr (.inl ⟨a, ended, rfl⟩)⟩
  | error e =>
    obtain ⟨s₂, r, later⟩ := caught e s₁
    exact ⟨s₂, r, ends_tryCatch.mpr (.inr ⟨s₁, e, ended, later⟩)⟩

theorem canEnd_ofExcept (r : Except ε α) :
    CanEnd perform (MonadExcept.ofExcept r : Async σ C A ε α) :=
  fun s => ⟨s, r, endsIn_ofExcept.ends⟩

theorem canEnd_send {c : C}
    (answered : ∀ s, ∃ choice s' r, perform s c choice = some (s', r)) :
    CanEnd perform (send c : Async σ C A ε (A c)) := by
  intro s
  obtain ⟨choice, s', r, performed⟩ := answered s
  exact ⟨s', r, ends_send.mpr ⟨choice, performed⟩⟩

theorem canEnd_get_bind {f : σ → Async σ C A ε α} (next : ∀ s, CanEnd perform (f s)) :
    CanEnd perform (get >>= f) :=
  fun s => next s s

end

/-! ## What escapes -/

section
variable {σ C : Type} {A : C → Type} {ε α β : Type}

/-- The program does not throw, whatever else runs and however its commands are answered. -/
def NeverThrows : Async σ C A ε α → Prop
  | .pure _ => True
  | .throw _ => False
  | .sync _ k => ∀ s, NeverThrows (k s)
  | .await _ k => ∀ r, NeverThrows (k r)

/-- The program does not return: it throws, whatever else runs and however its commands are
answered. -/
def NeverReturns : Async σ C A ε α → Prop
  | .pure _ => False
  | .throw _ => True
  | .sync _ k => ∀ s, NeverReturns (k s)
  | .await _ k => ∀ r, NeverReturns (k r)

theorem neverThrows_get_bind {f : σ → Async σ C A ε α} (next : ∀ s, NeverThrows (f s)) :
    NeverThrows (get >>= f) := next

theorem neverThrows_modify_bind {g : σ → σ} {k : Unit → Async σ C A ε α}
    (next : NeverThrows (k ())) : NeverThrows (modify g >>= k) := fun _ => next

theorem neverThrows_modify (g : σ → σ) : NeverThrows (modify g : Async σ C A ε Unit) :=
  fun _ => trivial

/-- A library function that succeeds, and what follows it. -/
theorem neverThrows_ofExcept_bind {r : Except ε α} {a : α} {f : α → Async σ C A ε β}
    (succeeds : r = .ok a) (next : NeverThrows (f a)) :
    NeverThrows (MonadExcept.ofExcept r >>= f) := by
  rw [succeeds]
  exact next

/-- A handler that does not throw contains whatever its program throws. -/
theorem neverThrows_tryCatch {h : ε → Async σ C A ε α} (caught : ∀ e, NeverThrows (h e))
    (m : Async σ C A ε α) : NeverThrows (MonadExcept.tryCatch m h) := by
  induction m with
  | pure a => trivial
  | throw e => exact caught e
  | sync g k ih => exact fun s => ih s
  | await c k ih => exact fun r => ih r

theorem neverReturns_bind_next (m : Async σ C A ε α) {f : α → Async σ C A ε β}
    (next : ∀ a, NeverReturns (f a)) : NeverReturns (m >>= f) := by
  induction m with
  | pure a => exact next a
  | throw e => trivial
  | sync g k ih => exact fun s => ih s
  | await c k ih => exact fun r => ih r

theorem neverReturns_tryCatch {m : Async σ C A ε α} {h : ε → Async σ C A ε α}
    (body : NeverReturns m) (caught : ∀ e, NeverReturns (h e)) :
    NeverReturns (MonadExcept.tryCatch m h) := by
  induction m with
  | pure a => exact body.elim
  | throw e => exact caught e
  | sync g k ih => exact fun s => ih s (body s)
  | await c k ih => exact fun r => ih r (body r)

/-- A program that never returns throws. -/
theorem NeverReturns.throws [Inhabited σ] [Inhabited ε] {m : Async σ C A ε α}
    (never : NeverReturns m) : ¬NeverThrows m := by
  induction m with
  | pure a => exact never.elim
  | throw e => exact id
  | sync g k ih => exact fun safe => ih default (never default) (safe default)
  | await c k ih => exact fun safe => ih (.error default) (never _) (safe _)

end

/-! ## A program observed -/

/-- A command that was awaited, with its answer. -/
abbrev Answered (C : Type) (A : C → Type) (ε : Type) := (c : C) × Except ε (A c)

/-- Whatever else runs: it answers a command, in the light of what was answered before, and leaves
another state. -/
abbrev Surroundings (σ C : Type) (A : C → Type) (ε : Type) :=
  List (Answered C A ε) → σ → (c : C) → σ × Except ε (A c)

/-- What a program has awaited so far, the state that it left, and how it has ended. -/
structure Observation (σ C : Type) (A : C → Type) (ε α : Type) where
  answered : List (Answered C A ε)
  state : σ
  result : Except ε α

section
variable {σ C : Type} {A : C → Type} {ε α β : Type} (around : Surroundings σ C A ε)

/-- Run the program in the surroundings, after `answered`, from the state `s`. -/
def observe : Async σ C A ε α → List (Answered C A ε) → σ → Observation σ C A ε α
  | .pure a, answered, s => ⟨answered, s, .ok a⟩
  | .throw e, answered, s => ⟨answered, s, .error e⟩
  | .sync f k, answered, s => observe (k s) answered (f s)
  | .await c k, answered, s =>
    let next := around answered s c
    observe (k next.2) (answered ++ [⟨c, next.2⟩]) next.1

variable {around} {answered answered₁ : List (Answered C A ε)} {s s₁ : σ}

@[simp] theorem observe_pure (a : α) :
    observe around (Pure.pure a) answered s = ⟨answered, s, .ok a⟩ := rfl

@[simp] theorem observe_modify (f : σ → σ) :
    observe around (modify f) answered s = ⟨answered, f s, .ok ()⟩ := rfl

@[simp] theorem observe_send (c : C) :
    observe around (send c) answered s =
      ⟨answered ++ [⟨c, (around answered s c).2⟩], (around answered s c).1,
        (around answered s c).2⟩ := by
  simp only [send, observe]
  cases (around answered s c).2 <;> rfl

/-- The second program goes on where the first has returned. -/
theorem observe_bind {m : Async σ C A ε α} {a : α} (f : α → Async σ C A ε β)
    (first : observe around m answered s = ⟨answered₁, s₁, .ok a⟩) :
    observe around (m >>= f) answered s = observe around (f a) answered₁ s₁ := by
  induction m generalizing answered s with
  | pure a' => cases first; rfl
  | throw e => cases first
  | sync g k ih => exact ih s first
  | await c k ih => exact ih _ first

/-- What never throws returns. -/
theorem NeverThrows.observe {m : Async σ C A ε α} (safe : NeverThrows m)
    (answered : List (Answered C A ε)) (s : σ) :
    ∃ answered₁ s₁ a, Lib.observe around m answered s = ⟨answered₁, s₁, .ok a⟩ := by
  induction m generalizing answered s with
  | pure a => exact ⟨answered, s, a, rfl⟩
  | throw e => exact safe.elim
  | sync g k ih => exact ih s (safe s) answered (g s)
  | await c k ih => exact ih _ (safe _) _ _

end

end QuietStorage.Lib
