import Mathlib.Algebra.Ring.Int.Defs
import Mathlib.Algebra.Ring.Nat
import Mathlib.Tactic.Common

/-!
# Lib.JsNumber — the integers a binary64 number can hold

`Number(n)` of an integer `n` is the binary64 number nearest to `n`, the even one of two equally
near. Up to `2 ^ 53` every integer is such a number; above it they thin out, by a factor of two at
each power of two. `ofInt` is that rounding, for the integers whose nearest binary64 number is
finite, which all 64-bit integers are. A value it leaves alone is `Representable`.

The other fixed-width type here is the signed 64-bit integer of a SQL `bigint`, a subtype of the
integers. Its arithmetic does not wrap: `bigint n` is `n` when it fits and nothing when it does not.
-/

set_option autoImplicit false

namespace QuietStorage.Lib.JsNumber

/-- The significand of a binary64 number has this many bits. -/
def precision : Nat := 53

/-- The binary64 number nearest to a natural number, ties to the even significand. -/
def ofNat (n : Nat) : Nat :=
  if n ≤ 2 ^ precision then n
  else
    -- the weight of the last bit of a significand of `n`'s magnitude
    let ulp := 2 ^ (n.log2 + 1 - precision)
    let below := n / ulp
    let rest := n % ulp
    if 2 * rest < ulp ∨ (2 * rest = ulp ∧ below % 2 = 0) then below * ulp else (below + 1) * ulp

/-- The binary64 number nearest to an integer. -/
def ofInt : Int → Int
  | .ofNat n => .ofNat (ofNat n)
  | .negSucc n => -.ofNat (ofNat (n + 1))

/-- `n` is itself a binary64 number. -/
def Representable (n : Int) : Prop := ofInt n = n

instance (n : Int) : Decidable (Representable n) := inferInstanceAs (Decidable (ofInt n = n))

/-- Every integer of magnitude at most `2 ^ 53` is a binary64 number. -/
theorem representable_of_natAbs_le {n : Int} (small : n.natAbs ≤ 2 ^ precision) :
    Representable n := by
  cases n with
  | ofNat n =>
    have : ofNat n = n := if_pos small
    simp only [Representable, ofInt, this]
  | negSucc n =>
    have : ofNat (n + 1) = n + 1 := if_pos small
    simp only [Representable, ofInt, this]
    rfl

/-- The first integer that is not a binary64 number: it falls back to its lower neighbour. -/
example : ofInt (2 ^ 53 + 1) = 2 ^ 53 := by decide

/-- A number whose last bit divides it is a binary64 number. -/
theorem ofNat_of_dvd {n : Nat} (dvd : 2 ^ (n.log2 + 1 - precision) ∣ n) : ofNat n = n := by
  unfold ofNat
  split
  · rfl
  · dsimp only
    have whole : n % 2 ^ (n.log2 + 1 - precision) = 0 := Nat.mod_eq_zero_of_dvd dvd
    rw [whole, if_pos (.inl (by rw [Nat.mul_zero]; exact Nat.two_pow_pos _))]
    exact Nat.div_mul_cancel dvd

/-- A significand of at most `precision` bits, at any power of two, is a binary64 number. -/
theorem ofNat_mul_two_pow {m e : Nat} (le : m ≤ 2 ^ precision) : ofNat (m * 2 ^ e) = m * 2 ^ e := by
  refine ofNat_of_dvd ?_
  rcases Nat.eq_or_lt_of_le le with rfl | lt
  · rw [← Nat.pow_add, Nat.log2_two_pow]
    exact Nat.pow_dvd_pow 2 (by unfold precision; omega)
  · refine Nat.dvd_trans (Nat.pow_dvd_pow 2 ?_) (Nat.dvd_mul_left _ _)
    by_cases zero : m * 2 ^ e = 0
    · rw [zero]
      simp [precision]
    · have bound : m * 2 ^ e < 2 ^ (precision + e) := by
        rw [Nat.pow_add]
        exact Nat.mul_lt_mul_of_pos_right lt (Nat.two_pow_pos e)
      have := (Nat.log2_lt zero).mpr bound
      omega

/-- Rounding gives a significand of at most `precision` bits. -/
theorem exists_significand (n : Nat) : ∃ m e, m ≤ 2 ^ precision ∧ ofNat n = m * 2 ^ e := by
  unfold ofNat
  split
  · next small => exact ⟨n, 0, small, (Nat.mul_one n).symm⟩
  · next large =>
    have below : n / 2 ^ (n.log2 + 1 - precision) < 2 ^ precision := by
      refine Nat.div_lt_of_lt_mul ?_
      rw [← Nat.pow_add]
      have isBelow : n < 2 ^ (n.log2 + 1) := Nat.lt_log2_self
      exact Nat.lt_of_lt_of_le isBelow (Nat.pow_le_pow_right (by decide) (by omega))
    dsimp only
    split
    · exact ⟨_, _, Nat.le_of_lt below, rfl⟩
    · exact ⟨_, _, below, rfl⟩

/-- The opposite of a binary64 number is one. -/
theorem Representable.neg {n : Int} (representable : Representable n) : Representable (-n) := by
  cases n with
  | ofNat m =>
    cases m with
    | zero => rfl
    | succ m =>
      have fixed : ofNat (m + 1) = m + 1 := Int.ofNat.inj representable
      show -Int.ofNat (ofNat (m + 1)) = -Int.ofNat (m + 1)
      rw [fixed]
  | negSucc m =>
    have fixed : ofNat (m + 1) = m + 1 := Int.ofNat.inj (Int.neg_inj.mp representable)
    show Int.ofNat (ofNat (m + 1)) = Int.ofNat (m + 1)
    rw [fixed]

/-- A rounded number is a binary64 number. -/
theorem representable_ofInt (n : Int) : Representable (ofInt n) := by
  have rounded : ∀ n, Representable (.ofNat (ofNat n)) := by
    intro n
    obtain ⟨m, e, le, isProduct⟩ := exists_significand n
    rw [isProduct]
    exact congrArg Int.ofNat (ofNat_mul_two_pow le)
  cases n with
  | ofNat n => exact rounded n
  | negSucc n => exact (rounded (n + 1)).neg

/-- The largest value of a signed 64-bit integer. -/
def bigintMax : Int := 2 ^ 63 - 1

/-- The least value of a signed 64-bit integer. -/
def bigintMin : Int := -2 ^ 63

/-- A value of the type `bigint`. -/
abbrev Bigint := { n : Int // bigintMin ≤ n ∧ n ≤ bigintMax }

/-- The result of an operation on `bigint`s: the value when it is in range. -/
def bigint (n : Int) : Option Bigint :=
  if inRange : bigintMin ≤ n ∧ n ≤ bigintMax then some ⟨n, inRange⟩ else none

theorem bigint_eq_some {n : Int} {m : Bigint} : bigint n = some m ↔ n = m.val := by
  unfold bigint
  split
  · simp only [Option.some.injEq, Subtype.ext_iff]
  · next outside =>
    simp only [reduceCtorEq, false_iff]
    intro equal
    exact outside (equal ▸ m.property)

theorem bigint_eq_none {n : Int} : bigint n = none ↔ n < bigintMin ∨ bigintMax < n := by
  unfold bigint
  split
  · next inRange => simp only [reduceCtorEq, false_iff]; omega
  · next outside => simp only [true_iff]; omega

/-- A result in range is computed. -/
theorem exists_bigint {n : Int} (low : bigintMin ≤ n) (high : n ≤ bigintMax) :
    ∃ m, bigint n = some m :=
  ⟨⟨n, low, high⟩, bigint_eq_some.mpr rfl⟩

end QuietStorage.Lib.JsNumber
