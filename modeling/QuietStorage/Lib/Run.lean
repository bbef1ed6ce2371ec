import Mathlib.Logic.Basic
import Mathlib.Tactic.Common

/-!
# Lib.Run — runs of a machine given by a partial step function

A machine is a step function `step : σ → α → Option σ`: an action of `α` either moves the state or
is not enabled in it (`none`). A run is the list of its actions, so every nondeterministic choice
(who moves next, what the network delivers, what the clock reads) is in the label, and a run is a
value that the kernel can evaluate.

* `run step s as` is the state that the actions `as` lead to, if all of them are enabled in turn.
* `Along step C s as` says that each action of the run meets the condition `C` in the state it is
  taken from: the way to speak about the runs whose every step stays inside a condition.
* `Throughout step P s as` says that `P` holds in every state the run visits, its start included.
* `Since step s as a Q P` says that the run took `a` where `Q` held, and that `P` has held since.

Each induction is packaged once: `run_keeps` (an invariant of every step holds at the end of every
run), `run_keeps_along` and `throughout_of_along` (the same for steps that meet a condition, at the
end and in every state visited), `throughout_found` (a value that stays once it is there), and
`throughout_iff_along` (a property that a step keeps exactly when the step meets the condition).

Nothing here names a program; the modules above instantiate `step`.
-/

set_option autoImplicit false

namespace QuietStorage.Lib

universe u v
variable {σ : Type u} {α : Type v}

/-- The state a list of actions leads to, each taken where the one before it ended. -/
def run (step : σ → α → Option σ) : σ → List α → Option σ
  | s, [] => some s
  | s, a :: as => (step s a).bind fun s' => run step s' as

/-- Each action of the run meets `C` in the state it is taken from. An action that is not enabled
ends the run, so nothing is asked of what follows it. -/
def Along (step : σ → α → Option σ) (C : σ → α → Prop) : σ → List α → Prop
  | _, [] => True
  | s, a :: as =>
    C s a ∧ match step s a with
      | some s' => Along step C s' as
      | none => True

/-- `P` holds in every state the run visits. -/
def Throughout (step : σ → α → Option σ) (P : σ → Prop) : σ → List α → Prop
  | s, [] => P s
  | s, a :: as =>
    P s ∧ match step s a with
      | some s' => Throughout step P s' as
      | none => True

/-- In the run there was a moment at which `a` was taken, after actions and in a state of which `Q` holds,
and `P` has held in every state since. -/
def Since (step : σ → α → Option σ) (s : σ) (as : List α) (a : α) (Q : List α → σ → Prop)
    (P : σ → Prop) : Prop :=
  ∃ before later state next, as = before ++ a :: later ∧ run step s before = some state ∧
    Q before state ∧ step state a = some next ∧ Throughout step P next later

/-- A condition that can be decided at each step can be decided along a run. -/
instance decidableAlong (step : σ → α → Option σ) (C : σ → α → Prop)
    [∀ s a, Decidable (C s a)] : ∀ s as, Decidable (Along step C s as)
  | _, [] => .isTrue trivial
  | s, a :: as =>
    have : Decidable (match step s a with
        | some s' => Along step C s' as
        | none => True) :=
      match step s a with
      | some s' => decidableAlong step C s' as
      | none => .isTrue trivial
    inferInstanceAs (Decidable (_ ∧ _))

section
variable {step : σ → α → Option σ}

theorem run_cons (s : σ) (a : α) (as : List α) :
    run step s (a :: as) = (step s a).bind fun s' => run step s' as := rfl

/-- A run that goes on is a first step and a run from where it led. -/
theorem run_cons_eq_some {s s' : σ} {a : α} {as : List α} :
    run step s (a :: as) = some s' ↔ ∃ m, step s a = some m ∧ run step m as = some s' := by
  rw [run_cons, Option.bind_eq_some_iff]

/-- **The run lemma**: what every step keeps, every run keeps. -/
theorem run_keeps {P : σ → Prop} (keeps : ∀ s a s', P s → step s a = some s' → P s')
    {s s' : σ} {as : List α} (start : P s) (ran : run step s as = some s') : P s' := by
  induction as generalizing s with
  | nil => cases ran; exact start
  | cons a as ih =>
    obtain ⟨m, first, rest⟩ := run_cons_eq_some.mp ran
    exact ih (keeps s a m start first) rest

theorem run_snoc {s m s' : σ} {as : List α} {a : α} (ran : run step s as = some m)
    (taken : step m a = some s') : run step s (as ++ [a]) = some s' := by
  induction as generalizing s with
  | nil =>
    cases ran
    exact run_cons_eq_some.mpr ⟨s', taken, rfl⟩
  | cons b as ih =>
    obtain ⟨between, first, rest⟩ := run_cons_eq_some.mp ran
    exact run_cons_eq_some.mpr ⟨between, first, ih rest⟩

/-- A run that goes on is a run from where its first part led. -/
theorem run_append_eq {s m : σ} {as : List α} (ran : run step s as = some m) (bs : List α) :
    run step s (as ++ bs) = run step m bs := by
  induction as generalizing s with
  | nil =>
    cases ran
    rfl
  | cons a as ih =>
    obtain ⟨between, first, rest⟩ := run_cons_eq_some.mp ran
    rw [List.cons_append, run_cons, first, Option.bind_some]
    exact ih rest

theorem run_append {s m s' : σ} {as bs : List α} (ran : run step s as = some m)
    (later : run step m bs = some s') : run step s (as ++ bs) = some s' :=
  (run_append_eq ran bs).trans later

/-- **A machine over another**: when each step of the one is a run of the other, on a part of the state,
so is each run. -/
theorem run_projects {τ β : Type*} {step' : τ → β → Option τ} (f : σ → τ) (g : α → List β)
    (projects : ∀ s a s', step s a = some s' → run step' (f s) (g a) = some (f s'))
    {s s' : σ} {as : List α} (ran : run step s as = some s') :
    run step' (f s) (as.flatMap g) = some (f s') := by
  induction as generalizing s with
  | nil =>
    cases ran
    rfl
  | cons a as ih =>
    obtain ⟨m, first, rest⟩ := run_cons_eq_some.mp ran
    rw [List.flatMap_cons]
    exact run_append (projects s a m first) (ih rest)

/-- **The run lemma, of a property that speaks of what was done**: what every step keeps, from a state
that the actions before it led to, holds at the end of every run. -/
theorem run_remembers {P : List α → σ → Prop} {s₀ : σ} (start : P [] s₀)
    (keeps : ∀ done s a s', run step s₀ done = some s → P done s → step s a = some s' →
      P (done ++ [a]) s')
    {s : σ} {as : List α} (ran : run step s₀ as = some s) : P as s := by
  have goes : ∀ todo done m, run step s₀ done = some m → P done m → run step m todo = some s →
      P (done ++ todo) s := by
    intro todo
    induction todo with
    | nil =>
      intro done m _ holds rest
      cases rest
      rw [List.append_nil]
      exact holds
    | cons a todo ih =>
      intro done m before holds rest
      obtain ⟨between, first, later⟩ := run_cons_eq_some.mp rest
      have := ih (done ++ [a]) between (run_snoc before first) (keeps done m a between before holds first)
        later
      rwa [List.append_assoc, List.singleton_append] at this
  exact goes as [] s₀ rfl start ran

theorem along_cons {C : σ → α → Prop} {s : σ} {a : α} {as : List α} :
    Along step C s (a :: as) ↔
      C s a ∧ ∀ s', step s a = some s' → Along step C s' as := by
  cases taken : step s a with
  | none => simp only [Along, taken, reduceCtorEq, false_implies, implies_true]
  | some m => simp only [Along, taken, Option.some.injEq, forall_eq']

theorem throughout_cons {P : σ → Prop} {s : σ} {a : α} {as : List α} :
    Throughout step P s (a :: as) ↔
      P s ∧ ∀ s', step s a = some s' → Throughout step P s' as := by
  cases taken : step s a with
  | none => simp only [Throughout, taken, reduceCtorEq, false_implies, implies_true]
  | some m => simp only [Throughout, taken, Option.some.injEq, forall_eq']

/-- The condition holds of an action in the state that the run before it leads to. -/
theorem Along.of_run {C : σ → α → Prop} {s s' : σ} {as bs : List α} {a : α}
    (along : Along step C s (as ++ a :: bs)) (ran : run step s as = some s') : C s' a := by
  induction as generalizing s with
  | nil =>
    cases ran
    exact (along_cons.mp along).1
  | cons b as ih =>
    obtain ⟨m, first, rest⟩ := run_cons_eq_some.mp ran
    exact ih ((along_cons.mp along).2 m first) rest

/-- A property of every visited state holds at the start. -/
theorem Throughout.start {P : σ → Prop} {s : σ} {as : List α} (h : Throughout step P s as) :
    P s := by
  cases as with
  | nil => exact h
  | cons a as => exact h.1

/-- A weaker property. -/
theorem Throughout.imp {P Q : σ → Prop} (weaker : ∀ s, P s → Q s) {s : σ} {as : List α}
    (h : Throughout step P s as) : Throughout step Q s as := by
  induction as generalizing s with
  | nil => exact weaker s h
  | cons a as ih =>
    obtain ⟨here, later⟩ := throughout_cons.mp h
    exact throughout_cons.mpr ⟨weaker s here, fun s' first => ih (later s' first)⟩

/-- A property of every visited state holds where the run leads. -/
theorem Throughout.of_run {P : σ → Prop} {s s' : σ} {as : List α} (h : Throughout step P s as)
    (ran : run step s as = some s') : P s' := by
  induction as generalizing s with
  | nil => cases ran; exact h
  | cons a as ih =>
    obtain ⟨m, first, rest⟩ := run_cons_eq_some.mp ran
    exact ih ((throughout_cons.mp h).2 m first) rest

/-- A property of every visited state that holds after one more step. -/
theorem Throughout.snoc {P : σ → Prop} {s m s' : σ} {as : List α} {a : α}
    (h : Throughout step P s as) (ran : run step s as = some m) (taken : step m a = some s')
    (next : P s') : Throughout step P s (as ++ [a]) := by
  induction as generalizing s with
  | nil =>
    cases ran
    refine throughout_cons.mpr ⟨h, fun s'' first => ?_⟩
    cases taken.symm.trans first
    exact next
  | cons b as ih =>
    obtain ⟨between, first, rest⟩ := run_cons_eq_some.mp ran
    obtain ⟨here, later⟩ := throughout_cons.mp h
    refine throughout_cons.mpr ⟨here, fun s'' first' => ?_⟩
    cases first.symm.trans first'
    exact ih (later between first) rest

/-- The moment is now. -/
theorem Since.last {Q : List α → σ → Prop} {P : σ → Prop} {s m s' : σ} {as : List α} {a : α}
    (ran : run step s as = some m) (here : Q as m) (taken : step m a = some s') (next : P s') :
    Since step s (as ++ [a]) a Q P :=
  ⟨as, [], m, s', rfl, ran, here, taken, next⟩

/-- What has held since a moment goes on to. -/
theorem Since.snoc {Q : List α → σ → Prop} {P : σ → Prop} {s m s' : σ} {as : List α} {a b : α}
    (since : Since step s as a Q P) (ran : run step s as = some m) (taken : step m b = some s')
    (next : P s') : Since step s (as ++ [b]) a Q P := by
  obtain ⟨before, later, state, first, rfl, ranBefore, here, took, held⟩ := since
  have ranLater : run step first later = some m := by
    rw [← run_append_eq (run_snoc ranBefore took) later, List.append_assoc]
    exact ran
  refine ⟨before, later ++ [b], state, first, ?_, ranBefore, here, took, held.snoc ranLater taken next⟩
  rw [List.append_assoc, List.cons_append]

/-- **The run lemma under a condition**: what every step that meets `C` keeps, every run whose
steps all meet `C` keeps. -/
theorem run_keeps_along {P : σ → Prop} {C : σ → α → Prop}
    (keeps : ∀ s a s', P s → C s a → step s a = some s' → P s')
    {s s' : σ} {as : List α} (start : P s) (along : Along step C s as)
    (ran : run step s as = some s') : P s' := by
  induction as generalizing s with
  | nil => cases ran; exact start
  | cons a as ih =>
    obtain ⟨m, first, rest⟩ := run_cons_eq_some.mp ran
    obtain ⟨meets, later⟩ := along_cons.mp along
    exact ih (keeps s a m start meets first) (later m first) rest

/-- What follows from an invariant that every step under `C` keeps holds in every state that a run
under `C` visits. -/
theorem throughout_of_along {I P : σ → Prop} {C : σ → α → Prop}
    (keeps : ∀ s a s', I s → C s a → step s a = some s' → I s') (safe : ∀ s, I s → P s)
    {s : σ} {as : List α} (start : I s) (along : Along step C s as) : Throughout step P s as := by
  induction as generalizing s with
  | nil => exact safe s start
  | cons a as ih =>
    obtain ⟨meets, later⟩ := along_cons.mp along
    refine throughout_cons.mpr ⟨safe s start, fun m first => ?_⟩
    exact ih (keeps s a m start meets first) (later m first)

/-- What holds of every action in the states of an invariant holds along every run. -/
theorem along_of_keeps {I : σ → Prop} {C : σ → α → Prop}
    (keeps : ∀ s a s', I s → step s a = some s' → I s') (meets : ∀ s a, I s → C s a)
    {s : σ} {as : List α} (start : I s) : Along step C s as := by
  induction as generalizing s with
  | nil => trivial
  | cons a as ih => exact along_cons.mpr ⟨meets s a start, fun m first => ih (keeps s a m start first)⟩

/-- Two conditions that agree in the states of an invariant hold along the same runs. -/
theorem along_congr {I : σ → Prop} {C D : σ → α → Prop}
    (keeps : ∀ s a s', I s → step s a = some s' → I s') (same : ∀ s a, I s → (C s a ↔ D s a))
    {s : σ} {as : List α} (start : I s) : Along step C s as ↔ Along step D s as := by
  induction as generalizing s with
  | nil => exact Iff.rfl
  | cons a as ih =>
    rw [along_cons, along_cons, same s a start]
    exact and_congr_right fun _ => forall₂_congr fun m first => ih (keeps s a m start first)

/-- **An exact condition**: when, in the states of an invariant `I`, a step keeps `P` exactly if it
meets `C`, a run visits only `P`-states exactly if all its enabled steps meet `C`. -/
theorem throughout_iff_along {I P : σ → Prop} {C : σ → α → Prop}
    (keeps : ∀ s a s', I s → step s a = some s' → I s')
    (exact_ : ∀ s a s', I s → P s → step s a = some s' → (P s' ↔ C s a))
    (idle : ∀ s a, I s → step s a = none → C s a)
    {s : σ} {as : List α} (inv : I s) (start : P s) :
    Throughout step P s as ↔ Along step C s as := by
  induction as generalizing s with
  | nil => exact iff_of_true start trivial
  | cons a as ih =>
    rw [throughout_cons, along_cons]
    cases taken : step s a with
    | none => simp only [start, idle s a inv taken, reduceCtorEq, false_implies, implies_true]
    | some m =>
      simp only [start, true_and, Option.some.injEq, forall_eq']
      have step_iff := exact_ s a m inv start taken
      have invM := keeps s a m inv taken
      constructor
      · intro later
        have atM := later.start
        exact ⟨step_iff.mp atM, (ih invM atM).mp later⟩
      · rintro ⟨meets, later⟩
        exact (ih invM (step_iff.mpr meets)).mpr later

/-- **A value that is found once**: when, in the states of an invariant `I`, what `f` reads is never
changed once it is there, all the states of a run agree on it. -/
theorem throughout_found {κ : Type*} {I : σ → Prop} {f : σ → Option κ} (k₀ : κ)
    (keeps : ∀ s a s', I s → step s a = some s' → I s')
    (fixed : ∀ s a s' k, I s → step s a = some s' → f s = some k → f s' = some k)
    {s : σ} {as : List α} (start : I s) :
    ∃ k, Throughout step (fun s => I s ∧ ∀ k', f s = some k' → k' = k) s as := by
  induction as generalizing s with
  | nil =>
    cases found : f s with
    | none => exact ⟨k₀, start, fun k' isIt => by rw [found] at isIt; cases isIt⟩
    | some k => exact ⟨k, start, fun k' isIt => by rw [found] at isIt; cases isIt; rfl⟩
  | cons a as ih =>
    cases found : f s with
    | some k =>
      have step_keeps : ∀ s a s', I s ∧ f s = some k → step s a = some s' →
          I s' ∧ f s' = some k := fun s a s' inv taken =>
        ⟨keeps s a s' inv.1 taken, fixed s a s' k inv.1 taken inv.2⟩
      have along : Along step (fun _ _ => True) s (a :: as) :=
        along_of_keeps step_keeps (fun _ _ _ => trivial) ⟨start, found⟩
      refine ⟨k, throughout_of_along (fun s a s' inv _ => step_keeps s a s' inv) ?_
        ⟨start, found⟩ along⟩
      rintro s ⟨inv, isK⟩
      exact ⟨inv, fun k' isIt => Option.some.inj (isIt.symm.trans isK)⟩
    | none =>
      have here : ∀ k k', f s = some k' → k' = k := by
        intro k k' isIt
        rw [found] at isIt
        cases isIt
      cases taken : step s a with
      | none =>
        refine ⟨k₀, throughout_cons.mpr ⟨⟨start, here k₀⟩, fun s' first => ?_⟩⟩
        rw [taken] at first
        cases first
      | some m =>
        obtain ⟨k, later⟩ := ih (keeps s a m start taken)
        refine ⟨k, throughout_cons.mpr ⟨⟨start, here k⟩, fun s' first => ?_⟩⟩
        rw [taken] at first
        cases first
        exact later

end

end QuietStorage.Lib
