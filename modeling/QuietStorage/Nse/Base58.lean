import Mathlib.Data.Nat.Digits.Defs
import QuietStorage.Lib.JsValue
import QuietStorage.Lib.Radix
import QuietStorage.Types

/-!
# Nse.Base58 — bytes as text

`base58Encode` and `base58Decode` of the NSE auth service, and `toString('hex')`. The decoder is given
what the client sent, so its argument is a value of the language: it reads whatever can be iterated,
and looks each item up by its text.

Both are the change of base of `Lib.Radix`, which keeps leading zeros, with one exception: the decoder
gives the number zero a byte of its own, beside the leading zeros (`base58Decode_eq`). That is where
they are not inverse (`base58_inverse_iff`).
-/

set_option autoImplicit false

namespace QuietStorage.Nse

open Lib

/-- What is thrown: an `UnauthorizedException`, an error of the language, or any other error. -/
inductive NseError where
  | unauthorized (message : String)
  | typeError
  | error (message : String)
  deriving DecidableEq, Repr

/-- The Bitcoin base58 alphabet. -/
def BASE58_ALPHABET : List Char :=
  "123456789ABCDEFGHJKLMNPQRSTUVWXYZabcdefghijkmnopqrstuvwxyz".toList

/-- `BigInt('0x' + hex)`. -/
def bigIntOf (bytes : Bytes) : Nat := bytes.foldl (fun n b => 256 * n + b.toNat) 0

/-- The bytes of the hex text of a number, two digits at least. -/
def hexBytes (n : Nat) : Bytes :=
  if n = 0 then [0] else (Nat.digits 256 n).reverse.map UInt8.ofNat

/-- There is no number to read of an empty array. -/
def base58Encode (bytes : Bytes) : Except NseError String :=
  if bytes.isEmpty then .error (.error "Cannot convert 0x to a BigInt")
  else
    -- the loop finds the digits from the last to the first
    let digits := (Nat.digits 58 (bigIntOf bytes)).reverse.map fun d => BASE58_ALPHABET.getD d '1'
    let zeros := (bytes.takeWhile fun b => b = 0).map fun _ => '1'
    .ok (String.ofList (zeros ++ digits))

/-- `for (const c of s)`. -/
def iterate : JsValue → Except NseError (List JsValue)
  | .string s => .ok (s.toList.map fun c => .string c.toString)
  | .array items => .ok items
  | _ => .error .typeError

/-- `alphabet[c]`, and the error for what is no character of it. -/
def base58Digit (c : JsValue) : Except NseError Nat :=
  match c.text with
  | .error _ => .error .typeError
  | .ok key =>
    match BASE58_ALPHABET.findIdx? fun digit => digit.toString = key with
    | some digit => .ok digit
    | none => .error (.error ("Invalid base58 character: " ++ key))

def base58Decode (s : JsValue) : Except NseError Bytes := do
  let chars ← iterate s
  let digits ← chars.mapM base58Digit
  let leadingZeros := (chars.takeWhile fun c => c.strictEquals (.string "1")).length
  .ok (List.replicate leadingZeros 0 ++ hexBytes (digits.foldl (fun n digit => n * 58 + digit) 0))

/-- `toString('hex')`. -/
def toHex (bytes : Bytes) : String :=
  String.ofList (bytes.flatMap fun b => [Nat.digitChar (b.toNat / 16), Nat.digitChar (b.toNat % 16)])

/-- A text with a leading zero. -/
example : base58Decode (.string "12V") = .ok [0, 86] := by decide +kernel

/-! ## The table of digits -/

open Lib.Radix

/-- The character of a digit. -/
def digitChar (d : Nat) : Char := BASE58_ALPHABET.getD d '1'

/-- The digit of a character of the alphabet. -/
def digitOf (c : Char) : Nat := BASE58_ALPHABET.findIdx fun digit => decide (digit = c)

theorem length_alphabet : BASE58_ALPHABET.length = 58 := by decide +kernel

theorem nodup_alphabet : BASE58_ALPHABET.Nodup := by decide +kernel

theorem digitChar_eq {d : Nat} (small : d < BASE58_ALPHABET.length) :
    digitChar d = BASE58_ALPHABET[d] := by
  simp [digitChar, small]

theorem digitChar_mem (d : Nat) (small : d < 58) : digitChar d ∈ BASE58_ALPHABET := by
  rw [← length_alphabet] at small
  rw [digitChar_eq small]
  exact List.getElem_mem small

theorem digitOf_eq_idxOf (c : Char) : digitOf c = BASE58_ALPHABET.idxOf c := rfl

theorem digitOf_digitChar (d : Nat) (small : d < 58) : digitOf (digitChar d) = d := by
  rw [← length_alphabet] at small
  rw [digitChar_eq small, digitOf_eq_idxOf, nodup_alphabet.idxOf_getElem d small]

theorem digitOf_lt_length {c : Char} (mem : c ∈ BASE58_ALPHABET) :
    digitOf c < BASE58_ALPHABET.length := by
  rw [digitOf_eq_idxOf]
  exact List.idxOf_lt_length_of_mem mem

theorem digitChar_digitOf (c : Char) (mem : c ∈ BASE58_ALPHABET) : digitChar (digitOf c) = c := by
  rw [digitChar_eq (digitOf_lt_length mem)]
  simp only [digitOf_eq_idxOf, List.getElem_idxOf]

theorem digitOf_lt (c : Char) (mem : c ∈ BASE58_ALPHABET) : digitOf c < 58 :=
  (digitOf_lt_length mem).trans_eq length_alphabet

/-- The first character of the alphabet is the zero. -/
theorem digitChar_zero : digitChar 0 = '1' := by decide +kernel

theorem digitOf_one : digitOf '1' = 0 := by
  have := digitOf_digitChar 0 (by decide)
  rwa [digitChar_zero] at this

theorem digitOf_eq_zero_iff (c : Char) (mem : c ∈ BASE58_ALPHABET) : digitOf c = 0 ↔ c = '1' := by
  constructor
  · intro zero
    rw [← digitChar_digitOf c mem, zero, digitChar_zero]
  · rintro rfl
    exact digitOf_one

/-- The lookup of a character finds its digit, or throws. -/
theorem base58Digit_char (c : Char) :
    base58Digit (.string c.toString) =
      if c ∈ BASE58_ALPHABET then .ok (digitOf c)
      else .error (.error ("Invalid base58 character: " ++ c.toString)) := by
  have lookup : (fun digit : Char => decide (digit.toString = c.toString)) =
      fun digit => decide (digit = c) := by
    funext digit
    simp
  simp only [base58Digit, JsValue.text, lookup]
  by_cases mem : c ∈ BASE58_ALPHABET
  · have found : BASE58_ALPHABET.findIdx? (fun digit => decide (digit = c)) = some (digitOf c) := by
      rw [List.findIdx?_eq_some_iff_findIdx_eq]
      exact ⟨digitOf_lt c mem, rfl⟩
    simp [found, mem]
  · have none_ : BASE58_ALPHABET.findIdx? (fun digit => decide (digit = c)) = none := by
      rw [List.findIdx?_eq_none_iff]
      intro digit isDigit
      simpa using fun same : digit = c => mem (same ▸ isDigit)
    simp [none_, mem]

/-- A text over the alphabet is read, and any other is not. -/
theorem mapM_base58Digit (chars : List Char) :
    (∀ c ∈ chars, c ∈ BASE58_ALPHABET) ∧
        (chars.map fun c => JsValue.string c.toString).mapM base58Digit = .ok (chars.map digitOf) ∨
      (∃ c ∈ chars, c ∉ BASE58_ALPHABET) ∧
        ∃ e, (chars.map fun c => JsValue.string c.toString).mapM base58Digit = .error e := by
  induction chars with
  | nil => exact .inl ⟨by simp, rfl⟩
  | cons c chars ih =>
    simp only [List.map_cons, List.mapM_cons, base58Digit_char]
    by_cases mem : c ∈ BASE58_ALPHABET
    · simp only [mem, if_true]
      rcases ih with ⟨all, read⟩ | ⟨⟨other, isChar, outside⟩, e, failed⟩
      · refine .inl ⟨?_, ?_⟩
        · simpa [mem] using all
        · rw [read]
          rfl
      · refine .inr ⟨⟨other, List.mem_cons_of_mem _ isChar, outside⟩, e, ?_⟩
        rw [failed]
        rfl
    · simp only [mem, if_false]
      exact .inr ⟨⟨c, List.mem_cons_self, mem⟩, _, rfl⟩

/-! ## Both ways as a change of base -/

/-- The digits of a text over the alphabet. -/
def digitsOf (s : String) : List Nat := s.toList.map digitOf

/-- The bytes as digits. -/
def byteDigits (bytes : Bytes) : List Nat := bytes.map UInt8.toNat

theorem byteDigits_lt (bytes : Bytes) : ∀ d ∈ byteDigits bytes, d < 256 := by
  intro d mem
  obtain ⟨b, _, rfl⟩ := List.mem_map.mp mem
  exact b.toNat_lt

theorem ofNat_byteDigits (bytes : Bytes) : (byteDigits bytes).map UInt8.ofNat = bytes := by
  simp [byteDigits, Function.comp_def]

/-- **Encoding** writes the bytes in base 58. -/
theorem base58Encode_eq {bytes : Bytes} (some_ : bytes ≠ []) :
    base58Encode bytes =
      .ok (String.ofList ((transcode 256 58 (byteDigits bytes)).map digitChar)) := by
  have isValue : bigIntOf bytes = value 256 (byteDigits bytes) := by
    rw [value_eq_foldl, byteDigits, List.foldl_map]
    rfl
  have ones : (bytes.takeWhile fun b => decide (b = 0)).map (fun _ => '1') =
      (zeros (byteDigits bytes)).map digitChar := by
    have isZero : (fun d : Nat => decide (d = 0)) ∘ UInt8.toNat = fun b => decide (b = 0) := by
      funext b
      simp [← UInt8.toNat_inj]
    rw [zeros, byteDigits, List.takeWhile_map, isZero, List.map_map]
    apply List.map_congr_left
    intro b mem
    have : b = 0 := by simpa using List.mem_takeWhile_imp mem
    simp [this, digitChar_zero]
  simp only [base58Encode, List.isEmpty_iff, some_, if_false, isValue, ones]
  rw [transcode, List.map_append]
  rfl

/-- **Decoding** writes the digits in base 256, but for zero, which has a byte of its own. -/
theorem base58Decode_eq {s : String} (all : ∀ c ∈ s.toList, c ∈ BASE58_ALPHABET) :
    base58Decode (.string s) =
      .ok ((transcode 58 256 (digitsOf s)).map UInt8.ofNat ++
        if value 58 (digitsOf s) = 0 then [0] else []) := by
  have read : (s.toList.map fun c => JsValue.string c.toString).mapM base58Digit =
      .ok (digitsOf s) := by
    rcases mapM_base58Digit s.toList with ⟨_, read⟩ | ⟨⟨c, mem, outside⟩, _⟩
    · exact read
    · exact absurd (all c mem) outside
  have ones : ∀ chars : List Char, (∀ c ∈ chars, c ∈ BASE58_ALPHABET) →
      ((chars.map fun c => JsValue.string c.toString).takeWhile
        fun c => c.strictEquals (.string "1")).length = (zeros (chars.map digitOf)).length := by
    intro chars
    induction chars with
    | nil => simp [zeros]
    | cons c chars ih =>
      intro all
      have one : JsValue.strictEquals (.string c.toString) (.string "1") = decide (digitOf c = 0) := by
        rw [Bool.eq_iff_iff, decide_eq_true_iff, digitOf_eq_zero_iff c (all c List.mem_cons_self)]
        suffices String.singleton c = "1" ↔ c = '1' by simpa [JsValue.strictEquals]
        constructor
        · intro same
          simpa using congrArg String.toList same
        · rintro rfl
          rfl
      have rest := ih fun c mem => all c (List.mem_cons_of_mem _ mem)
      simp only [zeros, List.map_cons, List.takeWhile_cons, one] at rest ⊢
      by_cases zero : digitOf c = 0
      · simpa [zero] using rest
      · simp [zero]
  have isValue : (digitsOf s).foldl (fun n digit => n * 58 + digit) 0 = value 58 (digitsOf s) := by
    rw [value_eq_foldl]
    congr 1
    funext n d
    rw [Nat.mul_comm]
  have zeroBytes : (zeros (digitsOf s)).map UInt8.ofNat =
      List.replicate (zeros (digitsOf s)).length 0 := by
    conv_lhs => rw [zeros_eq_replicate, List.map_replicate]
    rfl
  have hex : hexBytes (value 58 (digitsOf s)) =
      (numeral 256 (value 58 (digitsOf s))).map UInt8.ofNat ++
        if value 58 (digitsOf s) = 0 then [0] else [] := by
    unfold hexBytes
    by_cases zero : value 58 (digitsOf s) = 0
    · simp [zero]
    · simp [zero, numeral]
  simp only [base58Decode, iterate, bind, Except.bind, read, ones s.toList all, isValue]
  rw [transcode, List.map_append, zeroBytes, List.append_assoc, ← hex]
  rfl

/-- **There and back from bytes**: what comes back has a zero byte more when all bytes are zero. -/
theorem decode_encode {bytes : Bytes} (some_ : bytes ≠ []) :
    (base58Encode bytes >>= fun s => base58Decode (.string s)) =
      .ok (bytes ++ if bytes.all fun b => decide (b = 0) then [0] else []) := by
  have digits := byteDigits_lt bytes
  have inAlphabet : ∀ c ∈ ((transcode 256 58 (byteDigits bytes)).map digitChar),
      c ∈ BASE58_ALPHABET := by
    intro c mem
    obtain ⟨d, isDigit, rfl⟩ := List.mem_map.mp mem
    exact digitChar_mem d (lt_of_mem_transcode (by decide) isDigit)
  have isDigits : digitsOf (String.ofList ((transcode 256 58 (byteDigits bytes)).map digitChar)) =
      transcode 256 58 (byteDigits bytes) := by
    rw [digitsOf, String.toList_ofList, List.map_map]
    conv_rhs => rw [← List.map_id (transcode 256 58 (byteDigits bytes))]
    apply List.map_congr_left
    exact fun d mem => digitOf_digitChar d (lt_of_mem_transcode (by decide) mem)
  have allZero : value 256 (byteDigits bytes) = 0 ↔
      (bytes.all fun b => decide (b = 0)) = true := by
    rw [value_eq_zero_iff (by decide) digits]
    simp [byteDigits, ← UInt8.toNat_inj]
  rw [base58Encode_eq some_]
  simp only [bind, Except.bind]
  rw [base58Decode_eq (by simpa only [String.toList_ofList] using inAlphabet), isDigits,
    transcode_transcode (by decide) 58 digits, ofNat_byteDigits, value_transcode]
  simp only [allZero]

/-- **There and back from a text**: what comes back has a `1` more when all of it is `1`. -/
theorem encode_decode {s : String} (all : ∀ c ∈ s.toList, c ∈ BASE58_ALPHABET) :
    (base58Decode (.string s) >>= base58Encode) =
      .ok (String.ofList
        (s.toList ++ if s.toList.all fun c => decide (c = '1') then ['1'] else [])) := by
  have digits : ∀ d ∈ digitsOf s, d < 58 := by
    intro d mem
    obtain ⟨c, isChar, rfl⟩ := List.mem_map.mp mem
    exact digitOf_lt c (all c isChar)
  have chars : (digitsOf s).map digitChar = s.toList := by
    rw [digitsOf, List.map_map]
    conv_rhs => rw [← List.map_id s.toList]
    apply List.map_congr_left
    exact fun c mem => digitChar_digitOf c (all c mem)
  have allOnes : value 58 (digitsOf s) = 0 ↔
      (s.toList.all fun c => decide (c = '1')) = true := by
    rw [value_eq_zero_iff (by decide) digits]
    simp only [digitsOf, List.mem_map, forall_exists_index, and_imp, forall_apply_eq_imp_iff₂,
      List.all_eq_true, decide_eq_true_iff]
    exact forall₂_congr fun c mem => digitOf_eq_zero_iff c (all c mem)
  have isBytes : ∀ l : List Nat, (∀ d ∈ l, d < 256) → byteDigits (l.map UInt8.ofNat) = l := by
    intro l small
    rw [byteDigits, List.map_map]
    conv_rhs => rw [← List.map_id l]
    apply List.map_congr_left
    intro d mem
    simp [Nat.mod_eq_of_lt (small d mem)]
  rw [base58Decode_eq all]
  simp only [bind, Except.bind]
  by_cases ones : (s.toList.all fun c => decide (c = '1')) = true
  · -- the bytes are those of the text and one more, all zero
    have zero := allOnes.mpr ones
    have zeroDigits := (value_eq_zero_iff (by decide) digits).mp zero
    have bytes : (transcode 58 256 (digitsOf s)).map UInt8.ofNat ++ [0] =
        (digitsOf s ++ [0]).map UInt8.ofNat := by
      rw [transcode_of_zeros 58 256 zeroDigits, List.map_append]
      rfl
    have still : ∀ d ∈ digitsOf s ++ [0], d = 0 := by simpa [or_imp, forall_and] using zeroDigits
    have small : ∀ d ∈ digitsOf s ++ [0], d < 256 := fun d mem => by simp [still d mem]
    rw [if_pos zero, if_pos ones, bytes, base58Encode_eq (by simp), isBytes _ small,
      transcode_of_zeros 256 58 still, List.map_append, chars, List.map_singleton, digitChar_zero]
  · have notZero : value 58 (digitsOf s) ≠ 0 := fun zero => ones (allOnes.mp zero)
    have small : ∀ d ∈ transcode 58 256 (digitsOf s), d < 256 :=
      fun d mem => lt_of_mem_transcode (by decide) mem
    have bytes : (transcode 58 256 (digitsOf s)).map UInt8.ofNat ≠ [] := by
      intro none_
      have same := value_transcode 58 256 (digitsOf s)
      rw [List.map_eq_nil_iff.mp none_] at same
      exact notZero same.symm
    rw [if_neg notZero, if_neg ones, List.append_nil, List.append_nil, base58Encode_eq bytes,
      isBytes _ small, transcode_transcode (by decide) 256 digits, chars]

/-- Decoding throws exactly for what is not over the alphabet. -/
theorem base58Decode_error_iff (s : String) :
    (∃ e, base58Decode (.string s) = .error e) ↔ ∃ c ∈ s.toList, c ∉ BASE58_ALPHABET := by
  rcases mapM_base58Digit s.toList with ⟨all, read⟩ | ⟨outside, e, failed⟩
  · rw [base58Decode_eq all]
    constructor
    · rintro ⟨e, failed⟩
      cases failed
    · rintro ⟨c, mem, outside⟩
      exact absurd (all c mem) outside
  · refine ⟨fun _ => outside, fun _ => ⟨e, ?_⟩⟩
    simp only [base58Decode, iterate, bind, Except.bind, failed]

/-- **The two are inverse exactly off the zeros**: an array comes back unless all its bytes are zero, a
text comes back unless all its characters are `1`, and what is thrown at is what is not over the
alphabet. -/
theorem base58_inverse_iff (bytes : Bytes) (s : String) :
    (bytes ≠ [] → ((base58Encode bytes >>= fun s => base58Decode (.string s)) = .ok bytes ↔
      ∃ b ∈ bytes, b ≠ 0)) ∧
    ((∀ c ∈ s.toList, c ∈ BASE58_ALPHABET) →
      ((base58Decode (.string s) >>= base58Encode) = .ok s ↔ ∃ c ∈ s.toList, c ≠ '1')) ∧
    ((∃ e, base58Decode (.string s) = .error e) ↔ ∃ c ∈ s.toList, c ∉ BASE58_ALPHABET) := by
  refine ⟨fun some_ => ?_, fun all => ?_, base58Decode_error_iff s⟩
  · rw [decode_encode some_]
    by_cases zero : (bytes.all fun b => decide (b = 0)) = true
    · rw [if_pos zero]
      simpa using zero
    · rw [if_neg zero]
      simpa using zero
  · rw [encode_decode all]
    by_cases ones : (s.toList.all fun c => decide (c = '1')) = true
    · have longer : String.ofList (s.toList ++ ['1']) ≠ s := by
        intro same
        have lengths := congrArg (fun t : String => t.toList.length) same
        simp at lengths
      rw [if_pos ones]
      simpa [longer] using ones
    · rw [if_neg ones, List.append_nil, String.ofList_toList]
      simpa using ones

/-- Looking at each character of a text. -/
theorem mem_alphabet_of_all {s : String}
    (all : (s.toList.all fun c => decide (c ∈ BASE58_ALPHABET)) = true) :
    ∀ c ∈ s.toList, c ∈ BASE58_ALPHABET :=
  fun c mem => of_decide_eq_true (List.all_eq_true.mp all c mem)

/-- Where they are not inverse: a zero byte, and a `1`. -/
theorem base58_zero_byte :
    (base58Encode [0] >>= fun s => base58Decode (.string s)) ≠ .ok [0] ∧
      (base58Decode (.string "1") >>= base58Encode) ≠ .ok "1" := by
  decide +kernel

theorem base58_inverse_sample :
    (base58Encode [0, 86] >>= fun s => base58Decode (.string s)) = .ok [0, 86] ∧
      (base58Decode (.string "12V") >>= base58Encode) = .ok "12V" :=
  have inverse := base58_inverse_iff [0, 86] "12V"
  ⟨(inverse.1 (by decide)).mpr ⟨86, by decide, by decide⟩,
    (inverse.2.1 (mem_alphabet_of_all (by decide))).mpr ⟨'2', by decide, by decide⟩⟩

end QuietStorage.Nse
