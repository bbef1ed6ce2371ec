import Mathlib.Data.List.Basic
import Mathlib.Order.Nat
import Mathlib.Tactic.Common

/-!
# Lib.Timeline — a value and the values it had before

A program that checks a condition and acts after an await acts on what was, not on what is. To say
what it knows, the values of a variable are kept in their order: `Sometime P since till` is that `P`
held at some moment between two. What was sometime the case stays so when the timeline is extended
and the interval is widened (`Sometime.mono`), and what is the case now was sometime so
(`Sometime.of_now`).
-/

set_option autoImplicit false

namespace QuietStorage.Lib

universe u

/-- A value, with the values it had before, the oldest first. -/
structure Timeline (σ : Type u) where
  past : List σ
  present : σ

namespace Timeline

variable {σ : Type u}

/-- The number of the present value. -/
def now (l : Timeline σ) : Nat := l.past.length

/-- All values up to now. -/
def states (l : Timeline σ) : List σ := l.past ++ [l.present]

/-- The next value. -/
def move (l : Timeline σ) (next : σ) : Timeline σ := ⟨l.states, next⟩

/-- At some moment from `since` to `till` the value satisfied `P`. -/
def Sometime (l : Timeline σ) (P : σ → Prop) (since till : Nat) : Prop :=
  ∃ n s, since ≤ n ∧ n ≤ till ∧ l.states[n]? = some s ∧ P s

/-- The timeline goes on from where it was. -/
def Extends (l l' : Timeline σ) : Prop := l.states <+: l'.states

theorem Extends.refl (l : Timeline σ) : Extends l l := List.prefix_rfl

theorem Extends.trans {l l₁ l₂ : Timeline σ} (first : Extends l l₁) (second : Extends l₁ l₂) :
    Extends l l₂ :=
  List.IsPrefix.trans first second

theorem extends_move (l : Timeline σ) (next : σ) : Extends l (l.move next) :=
  List.prefix_append l.states [next]

theorem length_states (l : Timeline σ) : l.states.length = l.now + 1 := by
  simp [states, now]

theorem Extends.now_le {l l' : Timeline σ} (extended : Extends l l') : l.now ≤ l'.now := by
  have length := List.IsPrefix.length_le extended
  rw [length_states, length_states] at length
  omega

theorem states_now (l : Timeline σ) : l.states[l.now]? = some l.present := by
  simp [states, now]

/-- What was sometime the case stays so. -/
theorem Sometime.mono {l l' : Timeline σ} {P : σ → Prop} {since since' till till' : Nat}
    (was : l.Sometime P since till) (extended : Extends l l') (earlier : since' ≤ since)
    (later : till ≤ till') : l'.Sometime P since' till' := by
  obtain ⟨n, s, after, before, isState, holds⟩ := was
  refine ⟨n, s, earlier.trans after, before.trans later, ?_, holds⟩
  obtain ⟨more, isMore⟩ := extended
  rw [← isMore, List.getElem?_append_left (List.getElem?_eq_some_iff.mp isState).1]
  exact isState

/-- What is the case now, is so at some moment of an interval up to now. -/
theorem Sometime.of_now {l : Timeline σ} {P : σ → Prop} {since : Nat} (holds : P l.present)
    (began : since ≤ l.now) : l.Sometime P since l.now :=
  ⟨l.now, l.present, began, le_rfl, l.states_now, holds⟩

end Timeline

end QuietStorage.Lib
