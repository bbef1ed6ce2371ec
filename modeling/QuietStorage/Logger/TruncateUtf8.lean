import QuietStorage.Lib.Utf8

/-!
# Logger.TruncateUtf8 — a log event and its limit in bytes

`truncateUtf8` cuts the bytes of a text so that its marker still fits, decodes what is left and puts
the marker behind it. The cut may go through a character. What is left of it, one to three bytes, is
decoded to `U+FFFD`, which has three: the result may have up to two bytes more than the limit.

**What is proved.** The length of the result to the byte (`length_truncateUtf8`), and that it is at
most the limit and two bytes, and above the limit exactly if one or two bytes of a character are left
(`truncateUtf8_bounded`).
-/

set_option autoImplicit false

namespace QuietStorage.Logger

open Lib

/-- `'…[truncated]'`. -/
def CLOUDWATCH_TRUNCATION_SUFFIX : List Char :=
  ['…', '[', 't', 'r', 'u', 'n', 'c', 'a', 't', 'e', 'd', ']']

/-- The characters that the first `sliceEnd` bytes of `buf` are decoded to, and the marker. -/
def truncateUtf8 (value : JsString) (maxBytes : Nat) : JsString :=
  let buf := Utf8.encode value
  if buf.length ≤ maxBytes then value
  else
    let suffixBytes := (Utf8.encodeChars CLOUDWATCH_TRUNCATION_SUFFIX).length
    let sliceEnd := maxBytes - suffixBytes
    Utf16.ofChars (Utf8.decode (buf.take sliceEnd)) ++ Utf16.ofChars CLOUDWATCH_TRUNCATION_SUFFIX

/-- `Buffer.byteLength(value, 'utf8')`. -/
def byteLength (value : JsString) : Nat := (Utf8.encode value).length

/-- The bytes of the marker. -/
def SUFFIX_BYTES : Nat := 14

/-- How many bytes of a split character the cut leaves. -/
def bytesLeft (value : JsString) (maxBytes : Nat) : Nat :=
  Utf8.broken (Utf16.chars value) (maxBytes - SUFFIX_BYTES)

theorem length_suffix : (Utf8.encodeChars CLOUDWATCH_TRUNCATION_SUFFIX).length = SUFFIX_BYTES := by
  decide

/-- A text that fits is left as it is. -/
theorem truncateUtf8_of_fits {value : JsString} {maxBytes : Nat}
    (fits : byteLength value ≤ maxBytes) : truncateUtf8 value maxBytes = value :=
  if_pos fits

/-- **The length of a text that was cut**: a character that was split counts three bytes instead of
those that were left of it. -/
theorem length_truncateUtf8 (value : JsString) {maxBytes : Nat}
    (large : SUFFIX_BYTES ≤ maxBytes) (long : maxBytes < byteLength value) :
    byteLength (truncateUtf8 value maxBytes) + bytesLeft value maxBytes =
      maxBytes + if bytesLeft value maxBytes = 0 then 0 else 3 := by
  have inside : maxBytes - SUFFIX_BYTES ≤ (Utf8.encodeChars (Utf16.chars value)).length := by
    rw [byteLength, Utf8.encode] at long
    omega
  have cut := Utf8.length_encode_decode_take (Utf16.chars value) (maxBytes - SUFFIX_BYTES) inside
  have marker : (Utf8.encode (Utf16.ofChars CLOUDWATCH_TRUNCATION_SUFFIX)).length = SUFFIX_BYTES := by
    rw [Utf8.encode, Utf16.chars_ofChars, length_suffix]
  rw [truncateUtf8, if_neg (by rw [byteLength] at long; omega), length_suffix, byteLength,
    Utf8.encode_ofChars_append, List.length_append, marker]
  rw [Utf8.encode, bytesLeft]
  omega

/-- **The limit, up to a split character**: a text that fits is left as it is; otherwise the result has
at most two bytes more than the limit, and more than the limit exactly if the cut leaves one or two
bytes of a character. -/
theorem truncateUtf8_bounded (value : JsString) {maxBytes : Nat} (large : SUFFIX_BYTES ≤ maxBytes) :
    (byteLength value ≤ maxBytes → truncateUtf8 value maxBytes = value) ∧
    byteLength (truncateUtf8 value maxBytes) ≤ maxBytes + 2 ∧
    (maxBytes < byteLength (truncateUtf8 value maxBytes) ↔
      maxBytes < byteLength value ∧
        (bytesLeft value maxBytes = 1 ∨ bytesLeft value maxBytes = 2)) := by
  refine ⟨truncateUtf8_of_fits, ?_⟩
  by_cases fits : byteLength value ≤ maxBytes
  · rw [truncateUtf8_of_fits fits]
    omega
  · have length_eq := length_truncateUtf8 value large (by omega)
    have few : bytesLeft value maxBytes ≤ 3 := Utf8.broken_le _ _
    split at length_eq <;> omega

/-- The witness of the bound: a text of nine times `é`, cut in the middle of one. -/
theorem truncateUtf8_bounded_split :
    (byteLength (List.replicate 9 0xE9) ≤ 15 →
      truncateUtf8 (List.replicate 9 0xE9) 15 = List.replicate 9 0xE9) ∧
    byteLength (truncateUtf8 (List.replicate 9 0xE9) 15) ≤ 15 + 2 ∧
    (15 < byteLength (truncateUtf8 (List.replicate 9 0xE9) 15) ↔
      15 < byteLength (List.replicate 9 0xE9) ∧
        (bytesLeft (List.replicate 9 0xE9) 15 = 1 ∨ bytesLeft (List.replicate 9 0xE9) 15 = 2)) :=
  truncateUtf8_bounded _ (by decide)

/-- Nine times `é`, 18 bytes, cut to 15: the result has 17. -/
theorem byteLength_truncateUtf8_split :
    SUFFIX_BYTES ≤ 15 ∧ byteLength (truncateUtf8 (List.replicate 9 0xE9) 15) = 17 := by
  decide +kernel

end QuietStorage.Logger
