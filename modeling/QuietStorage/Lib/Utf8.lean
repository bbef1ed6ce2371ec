import Mathlib.Tactic.Common
import Mathlib.Tactic.NormNum

/-!
# Lib.Utf8 — strings of code units, and their bytes

A string of JavaScript is a list of UTF-16 code units, of which some may be surrogates without their
partner. As text it is a list of characters, with `U+FFFD` for such a surrogate; its UTF-8 encoding is
that of its characters.

**Decoding** follows the decoder of the Encoding Standard: a byte begins a character or goes on with
one, within bounds that the first byte sets; a byte that fits nowhere, and what was begun and breaks
off, are replaced by one `U+FFFD`.

**What is proved.** What is encoded is decoded again (`decode_encode`). A cut through the bytes leaves
the characters that fit, and `U+FFFD` if it goes through one (`decode_take`), so the bytes that are left
of a split character are replaced by three (`length_encode_decode_take`).
-/

set_option autoImplicit false

namespace QuietStorage.Lib

/-! ## UTF-16 -/

/-- A string, as its code units. -/
abbrev JsString := List UInt16

/-- `U+FFFD`. -/
def replacement : Char := Char.ofNat 0xFFFD

namespace Utf16

def isHigh (u : UInt16) : Bool := decide (0xD800 ≤ u.toNat) && decide (u.toNat < 0xDC00)

def isLow (u : UInt16) : Bool := decide (0xDC00 ≤ u.toNat) && decide (u.toNat < 0xE000)

/-- The character of a code unit that has no partner. -/
def single (u : UInt16) : Char :=
  if isHigh u || isLow u then replacement else Char.ofNat u.toNat

/-- The characters of a string. -/
def chars : JsString → List Char
  | [] => []
  | [u] => [single u]
  | u :: v :: rest =>
    if isHigh u && isLow v then
      Char.ofNat (0x10000 + (u.toNat - 0xD800) * 0x400 + (v.toNat - 0xDC00)) :: chars rest
    else single u :: chars (v :: rest)

/-- The code units of a character. -/
def units (c : Char) : JsString :=
  if c.toNat < 0x10000 then [UInt16.ofNat c.toNat]
  else
    [UInt16.ofNat (0xD800 + (c.toNat - 0x10000) / 0x400),
      UInt16.ofNat (0xDC00 + (c.toNat - 0x10000) % 0x400)]

/-- The string of these characters. -/
def ofChars (cs : List Char) : JsString := cs.flatMap units

theorem chars_cons_of_not_high {u : UInt16} (alone : isHigh u = false) (rest : JsString) :
    chars (u :: rest) = single u :: chars rest := by
  cases rest with
  | nil => rfl
  | cons v rest => simp [chars, alone]

theorem toNat_valid (c : Char) :
    c.toNat < 0xD800 ∨ 0xE000 ≤ c.toNat ∧ c.toNat < 0x110000 := by
  rcases c.valid with below | ⟨above, below⟩
  · exact .inl below
  · exact .inr ⟨above, below⟩

/-- The characters of a string that was made of characters, before whatever follows. -/
theorem chars_ofChars_append (cs : List Char) (rest : JsString) :
    chars (ofChars cs ++ rest) = cs ++ chars rest := by
  induction cs with
  | nil => rfl
  | cons c cs ih =>
    have valid := toNat_valid c
    rw [ofChars, List.flatMap_cons, ← ofChars, List.append_assoc]
    by_cases small : c.toNat < 0x10000
    · have unit : (UInt16.ofNat c.toNat).toNat = c.toNat := by
        simp only [UInt16.toNat_ofNat', Nat.reducePow]
        omega
      have notHigh : isHigh (UInt16.ofNat c.toNat) = false := by
        rw [isHigh, unit]
        simp only [Bool.and_eq_false_iff, decide_eq_false_iff_not]
        omega
      have notLow : isLow (UInt16.ofNat c.toNat) = false := by
        rw [isLow, unit]
        simp only [Bool.and_eq_false_iff, decide_eq_false_iff_not]
        omega
      rw [units, if_pos small, List.singleton_append, chars_cons_of_not_high notHigh, ih, single,
        notHigh, notLow, unit, if_neg (by simp), Char.ofNat_toNat, List.cons_append]
    · have high : (UInt16.ofNat (0xD800 + (c.toNat - 0x10000) / 0x400)).toNat =
          0xD800 + (c.toNat - 0x10000) / 0x400 := by
        simp only [UInt16.toNat_ofNat', Nat.reducePow]
        omega
      have low : (UInt16.ofNat (0xDC00 + (c.toNat - 0x10000) % 0x400)).toNat =
          0xDC00 + (c.toNat - 0x10000) % 0x400 := by
        simp only [UInt16.toNat_ofNat', Nat.reducePow]
        omega
      have pair : 0x10000 + (c.toNat - 0x10000) / 0x400 * 0x400 + (c.toNat - 0x10000) % 0x400 =
          c.toNat := by omega
      rw [units, if_neg small, List.cons_append, List.singleton_append, chars, if_pos, ih, high, low,
        Nat.add_sub_cancel_left, Nat.add_sub_cancel_left, pair, Char.ofNat_toNat, List.cons_append]
      rw [isHigh, isLow, high, low]
      simp only [Bool.and_eq_true, decide_eq_true_eq]
      omega

theorem chars_ofChars (cs : List Char) : chars (ofChars cs) = cs := by
  simpa [chars] using chars_ofChars_append cs []

end Utf16

/-! ## UTF-8 -/

namespace Utf8

/-- The bytes of characters. -/
def encodeChars (cs : List Char) : List UInt8 := cs.flatMap String.utf8EncodeChar

/-- The bytes of a string. -/
def encode (s : JsString) : List UInt8 := encodeChars (Utf16.chars s)

/-- A character that was begun: what is known of its code point, how many bytes are still needed, and
the bounds of the next one. -/
structure Begun where
  codePoint : Nat
  needed : Nat
  lower : Nat
  upper : Nat

/-- A byte where no character was begun: the characters that it gives, and what it begins. -/
def lead (b : UInt8) : List Char × Option Begun :=
  let n := b.toNat
  if n ≤ 0x7F then ([Char.ofNat n], none)
  else if 0xC2 ≤ n ∧ n ≤ 0xDF then ([], some ⟨n % 0x20, 1, 0x80, 0xBF⟩)
  else if 0xE0 ≤ n ∧ n ≤ 0xEF then
    ([], some ⟨n % 0x10, 2, if n = 0xE0 then 0xA0 else 0x80, if n = 0xED then 0x9F else 0xBF⟩)
  else if 0xF0 ≤ n ∧ n ≤ 0xF4 then
    ([], some ⟨n % 0x08, 3, if n = 0xF0 then 0x90 else 0x80, if n = 0xF4 then 0x8F else 0xBF⟩)
  else ([replacement], none)

/-- The decoder, from what was begun. A byte that does not go on with it is taken up afresh. -/
def decodeFrom : Option Begun → List UInt8 → List Char
  | none, [] => []
  | some _, [] => [replacement]
  | none, b :: rest => (lead b).1 ++ decodeFrom (lead b).2 rest
  | some begun, b :: rest =>
    if begun.lower ≤ b.toNat ∧ b.toNat ≤ begun.upper then
      let codePoint := begun.codePoint * 0x40 + b.toNat % 0x40
      if begun.needed = 1 then Char.ofNat codePoint :: decodeFrom none rest
      else decodeFrom (some ⟨codePoint, begun.needed - 1, 0x80, 0xBF⟩) rest
    else replacement :: ((lead b).1 ++ decodeFrom (lead b).2 rest)

/-- The characters of bytes. -/
def decode (bytes : List UInt8) : List Char := decodeFrom none bytes

/-- A cut through a character in the middle of a text. -/
example : decode [0x61, 0xE2, 0x82, 0x61] = ['a', replacement, 'a'] := by decide

/-! ## Byte for byte -/

theorem toNat_byte {n : Nat} (small : n < 256) : (UInt8.ofNat n).toNat = n := by
  simp only [UInt8.toNat_ofNat', Nat.reducePow]
  omega

/-- The first byte of a character of two bytes. -/
theorem decode_lead_two {v : Nat} (low : 0x80 ≤ v) (high : v ≤ 0x7FF) (rest : List UInt8) :
    decodeFrom none (UInt8.ofNat (v / 64 % 0x20 + 0xC0) :: rest) =
      decodeFrom (some ⟨v / 64, 1, 0x80, 0xBF⟩) rest := by
  have byte := toNat_byte (n := v / 64 % 0x20 + 0xC0) (by omega)
  have point : (v / 64 % 0x20 + 0xC0) % 0x20 = v / 64 := by omega
  rw [decodeFrom, lead, byte, if_neg (by omega), if_pos (by omega), point, List.nil_append]

/-- The first byte of a character of three bytes. -/
theorem decode_lead_three {v : Nat} (high : v ≤ 0xFFFF) (rest : List UInt8) :
    decodeFrom none (UInt8.ofNat (v / 4096 % 0x10 + 0xE0) :: rest) =
      decodeFrom (some ⟨v / 4096, 2, if v / 4096 = 0 then 0xA0 else 0x80,
        if v / 4096 = 13 then 0x9F else 0xBF⟩) rest := by
  have byte := toNat_byte (n := v / 4096 % 0x10 + 0xE0) (by omega)
  have point : (v / 4096 % 0x10 + 0xE0) % 0x10 = v / 4096 := by omega
  have lowest : v / 4096 % 0x10 + 0xE0 = 0xE0 ↔ v / 4096 = 0 := by omega
  have surrogates : v / 4096 % 0x10 + 0xE0 = 0xED ↔ v / 4096 = 13 := by omega
  rw [decodeFrom, lead, byte, if_neg (by omega), if_neg (by omega), if_pos (by omega), point,
    List.nil_append]
  simp only [lowest, surrogates]

/-- The first byte of a character of four bytes. -/
theorem decode_lead_four {v : Nat} (high : v ≤ 0x10FFFF) (rest : List UInt8) :
    decodeFrom none (UInt8.ofNat (v / 262144 % 0x08 + 0xF0) :: rest) =
      decodeFrom (some ⟨v / 262144, 3, if v / 262144 = 0 then 0x90 else 0x80,
        if v / 262144 = 4 then 0x8F else 0xBF⟩) rest := by
  have byte := toNat_byte (n := v / 262144 % 0x08 + 0xF0) (by omega)
  have point : (v / 262144 % 0x08 + 0xF0) % 0x08 = v / 262144 := by omega
  have lowest : v / 262144 % 0x08 + 0xF0 = 0xF0 ↔ v / 262144 = 0 := by omega
  have highest : v / 262144 % 0x08 + 0xF0 = 0xF4 ↔ v / 262144 = 4 := by omega
  rw [decodeFrom, lead, byte, if_neg (by omega), if_neg (by omega), if_neg (by omega),
    if_pos (by omega), point, List.nil_append]
  simp only [lowest, highest]

/-- A byte that goes on with a character that needs more than it. -/
theorem decode_next {begun : Begun} {w : Nat} (six : w < 64) (above : begun.lower ≤ w + 0x80)
    (below : w + 0x80 ≤ begun.upper) (needed : begun.needed ≠ 1) (rest : List UInt8) :
    decodeFrom (some begun) (UInt8.ofNat (w + 0x80) :: rest) =
      decodeFrom (some ⟨begun.codePoint * 64 + w, begun.needed - 1, 0x80, 0xBF⟩) rest := by
  have byte := toNat_byte (n := w + 0x80) (by omega)
  have point : (w + 0x80) % 0x40 = w := by omega
  rw [decodeFrom, byte, if_pos ⟨above, below⟩, point]
  exact if_neg needed

/-- The byte that a character ends with. -/
theorem decode_last {begun : Begun} {w : Nat} (six : w < 64) (above : begun.lower ≤ w + 0x80)
    (below : w + 0x80 ≤ begun.upper) (needed : begun.needed = 1) (rest : List UInt8) :
    decodeFrom (some begun) (UInt8.ofNat (w + 0x80) :: rest) =
      Char.ofNat (begun.codePoint * 64 + w) :: decodeFrom none rest := by
  have byte := toNat_byte (n := w + 0x80) (by omega)
  have point : (w + 0x80) % 0x40 = w := by omega
  rw [decodeFrom, byte, if_pos ⟨above, below⟩, point]
  exact if_pos needed

/-! ## Character for character -/

/-- A character is decoded before whatever follows. -/
theorem decode_encodeChar (c : Char) (rest : List UInt8) :
    decode (String.utf8EncodeChar c ++ rest) = c :: decode rest := by
  have valid := Utf16.toNat_valid c
  have back : Char.ofNat c.toNat = c := Char.ofNat_toNat c
  have value : c.val.toNat = c.toNat := rfl
  unfold decode
  fun_cases String.utf8EncodeChar c with
  | case1 v one =>
    have byte := toNat_byte (n := v) (by omega)
    rw [List.singleton_append, decodeFrom, lead, byte, if_pos one, List.singleton_append]
    exact congrArg (· :: decodeFrom none rest) back
  | case2 v one two =>
    rw [List.cons_append, List.singleton_append, decode_lead_two (by omega) two,
      decode_last (by omega) (by simp) (by simp; omega) rfl]
    dsimp only
    rw [show v / 64 * 64 + v % 64 = c.toNat by omega, back]
  | case3 v one two three =>
    rw [List.cons_append, List.cons_append, List.singleton_append, decode_lead_three three,
      decode_next (by omega) ?_ ?_ (by simp), decode_last (by omega) (by simp) (by simp; omega) rfl]
    · dsimp only
      rw [show (v / 4096 * 64 + v / 64 % 64) * 64 + v % 64 = c.toNat by omega, back]
    · dsimp only
      split <;> omega
    · dsimp only
      split <;> omega
  | case4 v one two three =>
    rw [List.cons_append, List.cons_append, List.cons_append, List.singleton_append,
      decode_lead_four (by omega), decode_next (by omega) ?_ ?_ (by simp),
      decode_next (by omega) (by simp) (by simp; omega) (by simp),
      decode_last (by omega) (by simp) (by simp; omega) rfl]
    · dsimp only
      rw [show ((v / 262144 * 64 + v / 4096 % 64) * 64 + v / 64 % 64) * 64 + v % 64 = c.toNat by
        omega, back]
    · dsimp only
      split <;> omega
    · dsimp only
      split <;> omega

/-- A character that breaks off is replaced. -/
theorem decode_broken (c : Char) {k : Nat} (some_ : 0 < k) (notAll : k < c.utf8Size) :
    decode ((String.utf8EncodeChar c).take k) = [replacement] := by
  have valid := Utf16.toNat_valid c
  have value : c.val.toNat = c.toNat := rfl
  rw [← String.length_utf8EncodeChar] at notAll
  unfold decode
  revert notAll
  fun_cases String.utf8EncodeChar c with
  | case1 v one =>
    intro notAll
    simp only [List.length_singleton] at notAll
    omega
  | case2 v one two =>
    intro notAll
    simp only [List.length_cons, List.length_nil] at notAll
    obtain rfl : k = 1 := by omega
    rw [List.take_succ_cons, List.take_zero, decode_lead_two (by omega) two]
    rfl
  | case3 v one two three =>
    intro notAll
    simp only [List.length_cons, List.length_nil] at notAll
    obtain rfl | rfl : k = 1 ∨ k = 2 := by omega
    · rw [List.take_succ_cons, List.take_zero, decode_lead_three three]
      rfl
    · rw [List.take_succ_cons, List.take_succ_cons, List.take_zero, decode_lead_three three,
        decode_next (by omega) ?_ ?_ (by simp)]
      · rfl
      · dsimp only
        split <;> omega
      · dsimp only
        split <;> omega
  | case4 v one two three =>
    intro notAll
    simp only [List.length_cons, List.length_nil] at notAll
    have second : ∀ rest, decodeFrom none (UInt8.ofNat (v / 262144 % 0x08 + 0xF0) ::
        UInt8.ofNat (v / 4096 % 64 + 0x80) :: rest) =
          decodeFrom (some ⟨v / 262144 * 64 + v / 4096 % 64, 2, 0x80, 0xBF⟩) rest := by
      intro rest
      rw [decode_lead_four (by omega), decode_next (by omega) ?_ ?_ (by simp)]
      · rfl
      · dsimp only
        split <;> omega
      · dsimp only
        split <;> omega
    obtain rfl | rfl | rfl : k = 1 ∨ k = 2 ∨ k = 3 := by omega
    · rw [List.take_succ_cons, List.take_zero, decode_lead_four (by omega)]
      rfl
    · rw [List.take_succ_cons, List.take_succ_cons, List.take_zero, second]
      rfl
    · rw [List.take_succ_cons, List.take_succ_cons, List.take_succ_cons, List.take_zero, second,
        decode_next (by omega) (by simp) (by simp; omega) (by simp)]
      rfl

/-! ## A cut -/

/-- The characters whose bytes are all among the first `n`. -/
def fitting : List Char → Nat → List Char
  | [], _ => []
  | c :: cs, n => if c.utf8Size ≤ n then c :: fitting cs (n - c.utf8Size) else []

/-- How many of the first `n` bytes are those of a character that breaks off there. -/
def broken : List Char → Nat → Nat
  | [], _ => 0
  | c :: cs, n => if c.utf8Size ≤ n then broken cs (n - c.utf8Size) else n

theorem length_encodeChars_cons (c : Char) (cs : List Char) :
    (encodeChars (c :: cs)).length = c.utf8Size + (encodeChars cs).length := by
  rw [encodeChars, List.flatMap_cons, List.length_append, String.length_utf8EncodeChar, encodeChars]

/-- The first bytes are decoded to the characters that fit, and what breaks off is replaced. -/
theorem decode_take (cs : List Char) (n : Nat) :
    decode ((encodeChars cs).take n) =
      fitting cs n ++ if broken cs n = 0 then [] else [replacement] := by
  induction cs generalizing n with
  | nil => simp [encodeChars, decode, decodeFrom, fitting, broken]
  | cons c cs ih =>
    rw [encodeChars, List.flatMap_cons, ← encodeChars, fitting, broken]
    by_cases fits : c.utf8Size ≤ n
    · rw [if_pos fits, if_pos fits, List.take_append, List.take_of_length_le (by simpa using fits),
        decode_encodeChar, String.length_utf8EncodeChar, ih, List.cons_append]
    · rw [if_neg fits, if_neg fits, List.nil_append,
        List.take_append_of_le_length (by simp; omega)]
      by_cases nothing : n = 0
      · simp [nothing, decode, decodeFrom]
      · rw [if_neg nothing, decode_broken c (by omega) (by omega)]

/-- The bytes up to a cut belong to the characters that fit, or to the one that breaks off. -/
theorem length_fitting_add_broken {cs : List Char} {n : Nat} (enough : n ≤ (encodeChars cs).length) :
    (encodeChars (fitting cs n)).length + broken cs n = n := by
  induction cs generalizing n with
  | nil =>
    have : n = 0 := by simpa [encodeChars] using enough
    simp [encodeChars, fitting, broken, this]
  | cons c cs ih =>
    rw [length_encodeChars_cons] at enough
    rw [fitting, broken]
    by_cases fits : c.utf8Size ≤ n
    · have rest := ih (n := n - c.utf8Size) (by omega)
      rw [if_pos fits, if_pos fits, length_encodeChars_cons]
      omega
    · rw [if_neg fits, if_neg fits]
      simp [encodeChars]

/-- At most three bytes of a character can break off. -/
theorem broken_le (cs : List Char) (n : Nat) : broken cs n ≤ 3 := by
  induction cs generalizing n with
  | nil => simp [broken]
  | cons c cs ih =>
    have size := c.utf8Size_le_four
    rw [broken]
    split
    · exact ih _
    · omega

/-- **The length of a cut that is decoded and encoded again**: what breaks off becomes three bytes. -/
theorem length_encode_decode_take (cs : List Char) (n : Nat)
    (enough : n ≤ (encodeChars cs).length) :
    (encodeChars (decode ((encodeChars cs).take n))).length + broken cs n =
      n + if broken cs n = 0 then 0 else 3 := by
  have parts := length_fitting_add_broken enough
  rw [decode_take, encodeChars, List.flatMap_append, List.length_append, ← encodeChars]
  split
  · simpa using parts
  · have three : ([replacement].flatMap String.utf8EncodeChar).length = 3 := by decide
    omega

/-- The bytes of a string that begins with characters. -/
theorem encode_ofChars_append (cs : List Char) (rest : JsString) :
    encode (Utf16.ofChars cs ++ rest) = encodeChars cs ++ encode rest := by
  rw [encode, Utf16.chars_ofChars_append, encodeChars, List.flatMap_append, encodeChars, encode,
    encodeChars]

end Utf8

end QuietStorage.Lib
