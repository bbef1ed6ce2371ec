import Mathlib.Algebra.Order.Group.Defs
import Mathlib.Data.List.Basic
import Mathlib.Data.List.Induction
import Mathlib.Tactic.Common

/-!
# Lib.SlidingWindow — counting what is recent

A limiter over a sliding window keeps the times of past events and counts those that are recent: not
before a start that only moves forward. `recent start l` is what it counts of the times `l`.

* What is dropped at one start is missed at no later start (`recent_recent`), so a list that was cut
  agrees from there on with the full history (`AgreeFrom`), and keeps to agree when both grow.
* A bound on what is recent at each event bounds every closed window, wherever it starts
  (`windows_bounded`).

Times are any linearly ordered commutative group.
-/

set_option autoImplicit false

namespace QuietStorage.Lib.SlidingWindow

universe u
variable {T : Type u} [LinearOrder T]

/-- The times that are not before a start. -/
def recent (start : T) (l : List T) : List T := l.filter fun t => decide (start ≤ t)

@[simp] theorem recent_nil (start : T) : recent start [] = [] := rfl

@[simp] theorem recent_append (start : T) (l l' : List T) :
    recent start (l ++ l') = recent start l ++ recent start l' :=
  List.filter_append ..

@[simp] theorem mem_recent {start t : T} {l : List T} :
    t ∈ recent start l ↔ t ∈ l ∧ start ≤ t := by
  simp [recent]

/-- What an earlier start drops, a later one drops too. -/
theorem recent_recent {start later : T} (le : start ≤ later) (l : List T) :
    recent later (recent start l) = recent later l := by
  unfold recent
  rw [List.filter_filter]
  apply List.filter_congr
  intro t _
  by_cases kept : later ≤ t
  · simp [kept, le.trans kept]
  · simp [kept]

/-- Two records of which every later start counts the same. -/
def AgreeFrom (start : T) (l l' : List T) : Prop :=
  ∀ later, start ≤ later → recent later l = recent later l'

namespace AgreeFrom

variable {start later : T} {l l' : List T}

theorem refl (start : T) (l : List T) : AgreeFrom start l l := fun _ _ => rfl

theorem trans {l'' : List T} (first : AgreeFrom start l l') (second : AgreeFrom start l' l'') :
    AgreeFrom start l l'' :=
  fun later le => (first later le).trans (second later le)

/-- Records that agree go on to agree. -/
theorem mono (agree : AgreeFrom start l l') (le : start ≤ later) : AgreeFrom later l l' :=
  fun s le' => agree s (le.trans le')

/-- A record cut at the start agrees with the whole. -/
theorem cut (start : T) (l : List T) : AgreeFrom start (recent start l) l :=
  fun _ le => recent_recent le l

/-- Records that agree still do when both grow. -/
theorem append (agree : AgreeFrom start l l') (new : List T) :
    AgreeFrom start (l ++ new) (l' ++ new) := by
  intro later le
  rw [recent_append, recent_append, agree later le]

end AgreeFrom

/-- **The window lemma**: when at each event at most `k` events are recent, itself included, every
closed window has at most `k`. The last event of the window decides: the others are recent at it. -/
theorem windows_bounded [AddCommGroup T] [IsOrderedAddMonoid T] {l : List T} {width : T} {k : Nat}
    (each : ∀ before t after, l = before ++ t :: after →
      (recent (t - width) (before ++ [t])).length ≤ k) (start : T) :
    (l.filter fun t => decide (start ≤ t ∧ t ≤ start + width)).length ≤ k := by
  induction l using List.reverseRecOn with
  | nil => simp
  | append_singleton l last ih =>
    by_cases inside : start ≤ last ∧ last ≤ start + width
    · have recentAll : (l ++ [last]).filter (fun t => decide (start ≤ t ∧ t ≤ start + width)) |>.Sublist
          (recent (last - width) (l ++ [last])) := by
        apply List.monotone_filter_right
        intro t
        simp only [decide_eq_true_eq]
        intro within
        exact (sub_le_iff_le_add.mpr inside.2).trans within.1
      exact recentAll.length_le.trans (each l last [] rfl)
    · have before : ∀ front t after, l = front ++ t :: after →
          (recent (t - width) (front ++ [t])).length ≤ k := by
        intro front t after split_
        apply each front t (after ++ [last])
        rw [split_, List.append_assoc, List.cons_append]
      simpa [List.filter_append, inside] using ih before

end QuietStorage.Lib.SlidingWindow
