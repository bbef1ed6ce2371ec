import Mathlib.Algebra.GroupWithZero.Nat
import Mathlib.Algebra.BigOperators.Group.List.Basic
import Mathlib.Tactic.Common

/-!
# Lib.Packing — filling a response within a byte budget

A response takes items one by one until its bytes, with those of the overhead that a response ending
there carries, reach a budget, or until it has as many items as were asked for. The first item is
always taken. What the loop takes is a front of the items (`pack_sound`), and it takes all of them
exactly when the bytes stay within the budget up to the last (`pack_rest_eq_nil_iff`).

The items are any type; their size, the overhead and the two limits are the fields of `Limits`.
-/

set_option autoImplicit false

namespace QuietStorage.Lib.Packing

universe u
variable {α : Type u}

structure Limits (α : Type u) where
  maxBytes : Nat
  limit : Option Nat
  size : α → Nat
  /-- The bytes that a response ending with the item carries besides its items; they depend on whether
  more is to come. -/
  overhead : α → Bool → Nat

/-- Why the loop stopped. -/
inductive Stop where
  | size | count | ended
  deriving DecidableEq, Repr

structure Packed (α : Type u) where
  taken : List α
  rest : List α
  stop : Stop

/-- The same after one more item. -/
@[simps] def Packed.cons (a : α) (p : Packed α) : Packed α := ⟨a :: p.taken, p.rest, p.stop⟩

namespace Limits

variable (L : Limits α)

/-- The bytes of some items. -/
def bytes (items : List α) : Nat := (items.map L.size).sum

@[simp] theorem bytes_nil : L.bytes [] = 0 := rfl

@[simp] theorem bytes_cons (a : α) (items : List α) :
    L.bytes (a :: items) = L.size a + L.bytes items := by
  simp [bytes]

@[simp] theorem bytes_append (items items' : List α) :
    L.bytes (items ++ items') = L.bytes items + L.bytes items' := by
  simp [bytes]

/-- The limit on the count allows one more after so many. -/
def Room (count : Nat) : Prop := ∀ n, L.limit = some n → count < n

/-- The loop, after `count` items of `used` bytes. `more` is whether anything follows the items. -/
def pack (more : Bool) : Nat → Nat → List α → Packed α
  | _, _, [] => ⟨[], [], .ended⟩
  | count, used, a :: items =>
    if 0 < count ∧ L.maxBytes < used + L.size a + L.overhead a (!items.isEmpty || more) then
      ⟨[], a :: items, .size⟩
    else if L.maxBytes ≤ used + L.size a + L.overhead a (!items.isEmpty || more) then
      ⟨[a], items, .size⟩
    else if L.limit.any (fun limit => decide (limit ≤ count + 1)) then ⟨[a], items, .count⟩
    else (pack more (count + 1) (used + L.size a) items).cons a

section
variable {L} {more : Bool} {count used : Nat} {a : α} {items : List α}

/-- The item does not fit after the ones taken. -/
theorem pack_over (tooLarge : 0 < count ∧
    L.maxBytes < used + L.size a + L.overhead a (!items.isEmpty || more)) :
    L.pack more count used (a :: items) = ⟨[], a :: items, .size⟩ :=
  if_pos tooLarge

/-- The item is taken and reaches the budget. -/
theorem pack_reached
    (fits : ¬ (0 < count ∧ L.maxBytes < used + L.size a + L.overhead a (!items.isEmpty || more)))
    (reached : L.maxBytes ≤ used + L.size a + L.overhead a (!items.isEmpty || more)) :
    L.pack more count used (a :: items) = ⟨[a], items, .size⟩ := by
  rw [pack, if_neg fits, if_pos reached]

/-- The item is taken and is the last that was asked for. -/
theorem pack_counted
    (below : ¬ L.maxBytes ≤ used + L.size a + L.overhead a (!items.isEmpty || more))
    (counted : L.limit.any (fun limit => decide (limit ≤ count + 1)) = true) :
    L.pack more count used (a :: items) = ⟨[a], items, .count⟩ := by
  rw [pack, if_neg (by omega), if_neg below, if_pos counted]

/-- The item is taken and the loop goes on. -/
theorem pack_goesOn
    (below : ¬ L.maxBytes ≤ used + L.size a + L.overhead a (!items.isEmpty || more))
    (room : ¬ L.limit.any (fun limit => decide (limit ≤ count + 1)) = true) :
    L.pack more count used (a :: items) =
      (L.pack more (count + 1) (used + L.size a) items).cons a := by
  rw [pack, if_neg (by omega), if_neg below, if_neg room]

end

/-- What the loop owes after `count` items of `used` bytes. -/
structure Sound (more : Bool) (count used : Nat) (items : List α) (p : Packed α) : Prop where
  split : items = p.taken ++ p.rest
  fits : p.taken = [] ∨ count + p.taken.length ≤ 1 ∨ ∃ last, p.taken.getLast? = some last ∧
    used + L.bytes p.taken + L.overhead last (!p.rest.isEmpty || more) ≤ L.maxBytes
  limited : ∀ n, L.limit = some n → count + p.taken.length ≤ n
  ended : p.stop = .ended → p.rest = [] ∧ L.Room (count + p.taken.length)
  progress : count = 0 → items ≠ [] → p.taken ≠ []

variable {L}

/-- Where nothing is left, all was taken. -/
theorem Sound.taken_eq {more : Bool} {count used : Nat} {items : List α} {p : Packed α}
    (sound : L.Sound more count used items p) (whole : p.rest = []) : p.taken = items := by
  rw [sound.split, whole, List.append_nil]

theorem room_of_not_any {count : Nat}
    (below : ¬ L.limit.any (fun limit => decide (limit ≤ count)) = true) : L.Room count := by
  intro n isLimit
  rw [isLimit, Option.any_some, decide_eq_true_eq] at below
  omega

/-- One item is taken, and the loop stops. -/
theorem sound_single {more : Bool} {count used : Nat} {a : α} {items : List α} {stop : Stop}
    (stopped : stop ≠ .ended) (room : L.Room count)
    (fits : ¬ (0 < count ∧
      L.maxBytes < used + L.size a + L.overhead a (!items.isEmpty || more))) :
    L.Sound more count used (a :: items) ⟨[a], items, stop⟩ := by
  refine ⟨rfl, .inr ?_, ?_, fun ends => absurd ends stopped, fun _ _ => List.cons_ne_nil a []⟩
  · by_cases first : count = 0
    · left
      simp [first]
    · right
      refine ⟨a, rfl, ?_⟩
      simp only [bytes_cons, bytes_nil]
      omega
  · intro n isLimit
    have := room n isLimit
    simp only [List.length_singleton]
    omega

/-- **The loop takes a front of the items**, within the limits. -/
theorem pack_sound (more : Bool) (items : List α) (count used : Nat) (room : L.Room count) :
    L.Sound more count used items (L.pack more count used items) := by
  induction items generalizing count used with
  | nil =>
    refine ⟨rfl, .inl rfl, ?_, fun _ => ⟨rfl, by simpa [pack] using room⟩, fun _ some_ => some_⟩
    intro n isLimit
    have := room n isLimit
    simp only [pack, List.length_nil]
    omega
  | cons a items ih =>
    rw [pack]
    split
    · next full =>
      refine ⟨rfl, .inl rfl, ?_, nofun, fun first => ?_⟩
      · intro n isLimit
        have := room n isLimit
        simp only [List.length_nil]
        omega
      · omega
    · next fits =>
      split
      · exact sound_single (by simp) room fits
      · split
        · exact sound_single (by simp) room fits
        · next below counted =>
          have later := ih (count + 1) (used + L.size a) (room_of_not_any counted)
          generalize L.pack more (count + 1) (used + L.size a) items = p at later
          have longer : count + (p.cons a).taken.length = count + 1 + p.taken.length := by
            simp only [Packed.cons_taken, List.length_cons]
            omega
          refine ⟨congrArg (a :: ·) later.split, .inr ?_, ?_, ?_, fun _ _ => List.cons_ne_nil a _⟩
          · rcases later.fits with none_ | one | ⟨last, isLast, within⟩
            · right
              refine ⟨a, by simp [none_], ?_⟩
              have : p.rest = items := by simpa [none_] using later.split.symm
              simp only [Packed.cons_taken, Packed.cons_rest, none_, this, bytes_cons, bytes_nil]
              omega
            · left
              omega
            · right
              refine ⟨last, by simp [List.getLast?_cons, isLast], ?_⟩
              simp only [Packed.cons_taken, Packed.cons_rest, bytes_cons]
              omega
          · intro n isLimit
            have := later.limited n isLimit
            omega
          · intro ends
            rw [longer]
            exact later.ended ends

/-! ## When all items are taken -/

/-- After `count` items of `used` bytes the bytes stay within the budget up to the last item: no item
but the first is over it, and only the last may reach it. -/
def Within (L : Limits α) (more : Bool) (count used : Nat) (items : List α) : Prop :=
  ∀ front a back, items = front ++ a :: back →
    (0 < count + front.length →
      used + L.bytes front + L.size a + L.overhead a (!back.isEmpty || more) ≤ L.maxBytes) ∧
    (back ≠ [] → used + L.bytes front + L.size a + L.overhead a true < L.maxBytes)

/-- The bytes of all items stay within the budget. -/
def Whole (L : Limits α) (more : Bool) (items : List α) : Prop := L.Within more 0 0 items

/-- The bytes and the count stay strictly below the limits: no limit stops the loop. -/
def Unstopped (L : Limits α) (more : Bool) (count used : Nat) (items : List α) : Prop :=
  ∀ front a back, items = front ++ a :: back →
    used + L.bytes front + L.size a + L.overhead a (!back.isEmpty || more) < L.maxBytes ∧
      L.Room (count + front.length + 1)

/-- A loop that came to the end of the items was stopped by no limit. -/
theorem unstopped_of_ended {more : Bool} {items : List α} {count used : Nat}
    (ended : (L.pack more count used items).stop = .ended) : L.Unstopped more count used items := by
  induction items generalizing count used with
  | nil =>
    intro front a back split
    simp at split
  | cons a items ih =>
    rw [pack] at ended
    split at ended
    · cases ended
    · split at ended
      · cases ended
      · next below =>
        split at ended
        · cases ended
        · next room =>
          intro front b back split
          cases front with
          | nil =>
            obtain ⟨rfl, rfl⟩ := List.cons.inj split
            simpa using ⟨Nat.lt_of_not_le below, room_of_not_any room⟩
          | cons c front =>
            obtain ⟨rfl, tail⟩ := List.cons.inj split
            have later := ih ended front b back tail
            simp only [bytes_cons, List.length_cons]
            refine ⟨?_, ?_⟩
            · have := later.1
              omega
            · have := later.2
              rwa [show count + (front.length + 1) + 1 = count + 1 + front.length + 1 by omega]

theorem within_nil {more : Bool} {count used : Nat} : L.Within more count used [] := by
  intro front a back split
  simp at split

/-- The first item stays within the budget, and those after it do. -/
theorem within_cons {more : Bool} {count used : Nat} {a : α} {items : List α} :
    L.Within more count used (a :: items) ↔
      (0 < count → used + L.size a + L.overhead a (!items.isEmpty || more) ≤ L.maxBytes) ∧
      (items ≠ [] → used + L.size a + L.overhead a true < L.maxBytes) ∧
      L.Within more (count + 1) (used + L.size a) items := by
  constructor
  · intro within
    have here := within [] a items rfl
    simp only [bytes_nil, List.length_nil, Nat.add_zero] at here
    refine ⟨here.1, here.2, fun front b back split => ?_⟩
    have later := within (a :: front) b back (congrArg (a :: ·) split)
    simp only [bytes_cons, List.length_cons] at later
    refine ⟨fun _ => ?_, fun some_ => ?_⟩
    · have := later.1 (by omega)
      omega
    · have := later.2 some_
      omega
  · intro ⟨fits, below, later⟩ front b back split
    cases front with
    | nil =>
      obtain ⟨rfl, rfl⟩ := List.cons.inj split
      simpa using ⟨fits, below⟩
    | cons c front =>
      obtain ⟨rfl, tail⟩ := List.cons.inj split
      have := later front b back tail
      simp only [bytes_cons, List.length_cons]
      refine ⟨fun _ => ?_, fun some_ => ?_⟩
      · have := this.1 (by omega)
        omega
      · have := this.2 some_
        omega

theorem pack_rest_eq_nil {more : Bool} {items : List α} {count used : Nat}
    (counted : ∀ n, L.limit = some n → count + items.length ≤ n) :
    (L.pack more count used items).rest = [] ↔ L.Within more count used items := by
  induction items generalizing count used with
  | nil => simp [pack, within_nil]
  | cons a items ih =>
    have later : (L.pack more (count + 1) (used + L.size a) items).rest = [] ↔
        L.Within more (count + 1) (used + L.size a) items := by
      apply ih
      intro n isLimit
      have := counted n isLimit
      rw [List.length_cons] at this
      omega
    rw [pack, within_cons]
    split
    · next full =>
      simp only [List.cons_ne_nil, false_iff]
      intro ⟨fits, _⟩
      have := fits full.1
      omega
    · next fits =>
      have fits : 0 < count →
          used + L.size a + L.overhead a (!items.isEmpty || more) ≤ L.maxBytes := by
        intro before
        omega
      split
      · next reached =>
        -- the loop stops here, which leaves nothing exactly if this is the last item
        constructor
        · rintro rfl
          exact ⟨fits, fun some_ => absurd rfl some_, within_nil⟩
        · intro ⟨_, below, _⟩
          by_contra some_
          have := below some_
          simp only [List.isEmpty_eq_false_iff.mpr some_, Bool.not_false, Bool.true_or] at reached
          omega
      · next below =>
        have below : items ≠ [] → used + L.size a + L.overhead a true < L.maxBytes := by
          intro some_
          simp only [List.isEmpty_eq_false_iff.mpr some_, Bool.not_false, Bool.true_or] at below
          omega
        split
        · next reached =>
          -- the count is reached, so this is the last item
          obtain ⟨n, isLimit, atLeast⟩ := (Option.any_eq_true _ _).mp reached
          have := counted n isLimit
          have := of_decide_eq_true atLeast
          rw [List.length_cons] at *
          obtain rfl : items = [] := List.length_eq_zero_iff.mp (by omega)
          simpa [within_nil] using fits
        · exact later.trans ⟨fun rest => ⟨fits, below, rest⟩, fun within => within.2.2⟩

/-- **The loop takes all items exactly when their bytes stay within the budget**, when there are no
more of them than were asked for. -/
theorem pack_rest_eq_nil_iff {more : Bool} {items : List α}
    (counted : ∀ n, L.limit = some n → items.length ≤ n) :
    (L.pack more 0 0 items).rest = [] ↔ L.Whole more items :=
  pack_rest_eq_nil (by simpa using counted)

end Limits

end QuietStorage.Lib.Packing
