import Mathlib.Data.List.TakeWhile
import Mathlib.Data.Nat.Digits.Lemmas
import Mathlib.Tactic.Common

/-!
# Lib.Radix — writing a text of digits in another base

A text is a list of digits, the most significant first, and its leading zeros count: `[0, 0, 7]` is not
`[7]`. `transcode b c` writes the number that a text names in base `b` as a text of base `c`, with as
many leading zeros. Between bases it loses nothing: a text is its leading zeros and the numeral of its
value (`zeros_append_numeral`), so going there and back is the identity (`transcode_transcode`).
-/

set_option autoImplicit false

namespace QuietStorage.Lib.Radix

/-- The number a text names. -/
def value (base : Nat) (l : List Nat) : Nat := Nat.ofDigits base l.reverse

/-- The shortest text of a number. -/
def numeral (base n : Nat) : List Nat := (Nat.digits base n).reverse

/-- The leading zeros of a text. -/
def zeros (l : List Nat) : List Nat := l.takeWhile fun d => decide (d = 0)

/-- The text of base `c` that names the same number and has the same leading zeros. -/
def transcode (b c : Nat) (l : List Nat) : List Nat := zeros l ++ numeral c (value b l)

/-- Horner's rule. -/
theorem value_eq_foldl (base : Nat) (l : List Nat) :
    value base l = l.foldl (fun n d => base * n + d) 0 := by
  rw [value, Nat.ofDigits_eq_foldr, List.foldr_reverse]
  congr 1
  funext n d
  simp [Nat.add_comm]

@[simp] theorem value_numeral (base n : Nat) : value base (numeral base n) = n := by
  simp [value, numeral, Nat.ofDigits_digits]

@[simp] theorem value_zeros_append (base k : Nat) (l : List Nat) :
    value base (List.replicate k 0 ++ l) = value base l := by
  simp [value]

@[simp] theorem numeral_zero (base : Nat) : numeral base 0 = [] := by
  simp [numeral]

theorem eq_zero_of_mem_zeros {l : List Nat} {d : Nat} (mem : d ∈ zeros l) : d = 0 := by
  simpa using List.mem_takeWhile_imp mem

theorem zeros_eq_replicate (l : List Nat) : zeros l = List.replicate (zeros l).length 0 :=
  List.eq_replicate_of_mem fun _ => eq_zero_of_mem_zeros

/-- A text from its first digit that is not zero is the numeral of its value. -/
theorem numeral_value {base : Nat} (two : 1 < base) {l : List Nat} (digits : ∀ d ∈ l, d < base) :
    numeral base (value base l) = l.dropWhile fun d => decide (d = 0) := by
  have split_ : l = List.replicate (zeros l).length 0 ++ l.dropWhile fun d => decide (d = 0) := by
    rw [← zeros_eq_replicate, zeros, List.takeWhile_append_dropWhile]
  have same : value base l = value base (l.dropWhile fun d => decide (d = 0)) := by
    conv_lhs => rw [split_]
    exact value_zeros_append _ _ _
  rw [same, numeral, value, Nat.digits_ofDigits base two, List.reverse_reverse]
  · intro d mem
    exact digits d ((List.dropWhile_suffix _).mem (List.mem_reverse.mp mem))
  · intro some_ isZero
    rw [List.getLast_reverse] at isZero
    have first := List.head_dropWhile_not (fun d : Nat => decide (d = 0)) (l := l)
      (by simpa using some_)
    simp [isZero] at first

/-- **A text is its leading zeros and the numeral of its value.** -/
theorem zeros_append_numeral {base : Nat} (two : 1 < base) {l : List Nat}
    (digits : ∀ d ∈ l, d < base) : zeros l ++ numeral base (value base l) = l := by
  rw [numeral_value two digits, zeros, List.takeWhile_append_dropWhile]

/-- A numeral has no leading zero. -/
theorem zeros_numeral (base n : Nat) : zeros (numeral base n) = [] := by
  by_cases zero : n = 0
  · simp [zero, zeros]
  · have some_ : Nat.digits base n ≠ [] := Nat.digits_ne_nil_iff_ne_zero.mpr zero
    obtain ⟨front, last, digits⟩ := List.eq_nil_or_concat _ |>.resolve_left some_
    have lastIs := Nat.getLast_digit_ne_zero base zero
    simp only [digits, List.concat_eq_append, List.getLast_append_singleton] at lastIs
    simp [zeros, numeral, digits, lastIs]

@[simp] theorem value_transcode (b c : Nat) (l : List Nat) :
    value c (transcode b c l) = value b l := by
  rw [transcode, zeros_eq_replicate, value_zeros_append, value_numeral]

@[simp] theorem zeros_transcode (b c : Nat) (l : List Nat) : zeros (transcode b c l) = zeros l := by
  have all : ∀ d ∈ zeros l, decide (d = 0) = true := by
    intro d mem
    simpa using eq_zero_of_mem_zeros mem
  rw [transcode]
  conv_lhs => rw [zeros, List.takeWhile_append_of_pos all]
  rw [← zeros, zeros_numeral, List.append_nil]

/-- **There and back.** -/
theorem transcode_transcode {b : Nat} (two : 1 < b) (c : Nat) {l : List Nat}
    (digits : ∀ d ∈ l, d < b) : transcode c b (transcode b c l) = l := by
  rw [transcode, zeros_transcode, value_transcode, zeros_append_numeral two digits]

/-- Zeros are written the same in every base. -/
theorem transcode_of_zeros (b c : Nat) {l : List Nat} (zero : ∀ d ∈ l, d = 0) :
    transcode b c l = l := by
  rw [List.eq_replicate_of_mem zero]
  simp [transcode, zeros, value]

/-- Only a text of zeros names zero. -/
theorem value_eq_zero_iff {base : Nat} (two : 1 < base) {l : List Nat} (digits : ∀ d ∈ l, d < base) :
    value base l = 0 ↔ ∀ d ∈ l, d = 0 := by
  constructor
  · intro zero
    have whole := zeros_append_numeral two digits
    rw [zero, numeral_zero, List.append_nil] at whole
    rw [← whole]
    exact fun d => eq_zero_of_mem_zeros
  · intro zero
    rw [List.eq_replicate_of_mem zero]
    simp [value]

theorem lt_of_mem_transcode {b c : Nat} (two : 1 < c) {l : List Nat} {d : Nat}
    (mem : d ∈ transcode b c l) : d < c := by
  rcases List.mem_append.mp mem with zero | digit
  · have := eq_zero_of_mem_zeros zero
    omega
  · exact Nat.digits_lt_base two (List.mem_reverse.mp digit)

end QuietStorage.Lib.Radix
