import Mathlib.Data.List.Nodup
import Mathlib.Data.Set.Basic
import Mathlib.Logic.Function.Basic
import Mathlib.Tactic.Common

/-!
# Lib.SingleUse — tickets that are used once

A ticket is open until somebody takes it; who has taken it may spend it. `Exclusive` is that a ticket
is in one place only: open, held by one holder, or spent once. A ticket is issued if it was nowhere
before (`Exclusive.issue`), open tickets may be dropped (`Exclusive.drop`), an open ticket is taken by
a holder, who thereby gives up what was held before (`Exclusive.take`), and what is held is spent
(`Exclusive.spend`). Taking removes the ticket from the open ones in the same step, and that is all
that single use rests on.
-/

set_option autoImplicit false

namespace QuietStorage.Lib

universe u v

/-- A ticket is open, or held by one holder, or spent once. -/
structure Exclusive {ι : Type u} {τ : Type v} (isOpen : Set ι) (held : τ → Option ι)
    (spent : List ι) : Prop where
  nodup : spent.Nodup
  heldOpen : ∀ t i, held t = some i → i ∉ isOpen
  heldOnce : ∀ t t' i, held t = some i → held t' = some i → t = t'
  spentOpen : ∀ i ∈ spent, i ∉ isOpen
  spentHeld : ∀ i ∈ spent, ∀ t, held t ≠ some i

namespace Exclusive

variable {ι : Type u} {τ : Type v} {isOpen isOpen' : Set ι} {held : τ → Option ι} {spent : List ι}

/-- No ticket has been issued. -/
theorem start : Exclusive (∅ : Set ι) (fun _ : τ => none) [] where
  nodup := List.nodup_nil
  heldOpen := fun _ _ isHeld => by cases isHeld
  heldOnce := fun _ _ _ isHeld => by cases isHeld
  spentOpen := fun _ mem => absurd mem List.not_mem_nil
  spentHeld := fun _ mem => absurd mem List.not_mem_nil

/-- Open tickets are dropped. -/
theorem drop (exclusive : Exclusive isOpen held spent) (fewer : isOpen' ⊆ isOpen) :
    Exclusive isOpen' held spent where
  nodup := exclusive.nodup
  heldOpen := fun t i isHeld still => exclusive.heldOpen t i isHeld (fewer still)
  heldOnce := exclusive.heldOnce
  spentOpen := fun i mem still => exclusive.spentOpen i mem (fewer still)
  spentHeld := exclusive.spentHeld

/-- A ticket is issued that was neither held nor spent. -/
theorem issue (exclusive : Exclusive isOpen held spent) {i : ι} (unheld : ∀ t, held t ≠ some i)
    (unspent : i ∉ spent) : Exclusive (insert i isOpen) held spent where
  nodup := exclusive.nodup
  heldOpen := by
    rintro t j isHeld (rfl | wasOpen)
    · exact unheld t isHeld
    · exact exclusive.heldOpen t j isHeld wasOpen
  heldOnce := exclusive.heldOnce
  spentOpen := by
    rintro j mem (rfl | wasOpen)
    · exact unspent mem
    · exact exclusive.spentOpen j mem wasOpen
  spentHeld := exclusive.spentHeld

variable [DecidableEq τ]

/-- An open ticket is taken. -/
theorem take (exclusive : Exclusive isOpen held spent) (t : τ) {i : ι} (wasOpen : i ∈ isOpen) :
    Exclusive (isOpen \ {i}) (Function.update held t (some i)) spent where
  nodup := exclusive.nodup
  heldOpen := by
    intro t' j isHeld isOpen
    rw [Function.update_apply] at isHeld
    split at isHeld
    · cases isHeld
      exact isOpen.2 rfl
    · exact exclusive.heldOpen t' j isHeld isOpen.1
  heldOnce := by
    intro t₁ t₂ j first second
    rw [Function.update_apply] at first second
    split at first
    · next is₁ =>
      split at second
      · next is₂ => exact is₁.trans is₂.symm
      · cases first
        exact absurd wasOpen (exclusive.heldOpen t₂ i second)
    · split at second
      · cases second
        exact absurd wasOpen (exclusive.heldOpen t₁ i first)
      · exact exclusive.heldOnce t₁ t₂ j first second
  spentOpen := fun j mem still => exclusive.spentOpen j mem still.1
  spentHeld := by
    intro j mem t' isHeld
    rw [Function.update_apply] at isHeld
    split at isHeld
    · cases isHeld
      exact exclusive.spentOpen i mem wasOpen
    · exact exclusive.spentHeld j mem t' isHeld

/-- A ticket that is held is spent. -/
theorem spend (exclusive : Exclusive isOpen held spent) {t : τ} {i : ι} (isHeld : held t = some i) :
    Exclusive isOpen (Function.update held t none) (spent ++ [i]) where
  nodup := by
    rw [← List.concat_eq_append]
    exact exclusive.nodup.concat fun mem => exclusive.spentHeld i mem t isHeld
  heldOpen := by
    intro t' j still
    rw [Function.update_apply] at still
    split at still
    · cases still
    · exact exclusive.heldOpen t' j still
  heldOnce := by
    intro t₁ t₂ j first second
    rw [Function.update_apply] at first second
    split at first
    · cases first
    · split at second
      · cases second
      · exact exclusive.heldOnce t₁ t₂ j first second
  spentOpen := by
    intro j mem
    rcases List.mem_append.mp mem with before | new
    · exact exclusive.spentOpen j before
    · rw [List.mem_singleton.mp new]
      exact exclusive.heldOpen t i isHeld
  spentHeld := by
    intro j mem t' still
    rw [Function.update_apply] at still
    split at still
    · cases still
    · next other =>
      rcases List.mem_append.mp mem with before | new
      · exact exclusive.spentHeld j before t' still
      · rw [List.mem_singleton.mp new] at still
        exact other (exclusive.heldOnce t' t i still isHeld)

end Exclusive

end QuietStorage.Lib
