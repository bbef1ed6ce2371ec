import QuietStorage.Lib.Utf8

/-!
# Lib.Quoted — quoted strings, and lines of named fields

`quote` is what `JSON.stringify` makes of a string: a quotation mark, the units of the string with what
is special escaped, and a quotation mark. `unquote` reads such a text up to the mark that ends it.

* A quoted string says where it ends, whatever follows it (`unquote_quote`), so fields that are written
  one after another with their names are read back one by one (`readFields_fieldLine`).
* It is text: no control character, no surrogate without its partner (`isText_quote`), no matter
  what the string was.
* It is at most six times as long (`length_quote_le`).
-/

set_option autoImplicit false

namespace QuietStorage.Lib

open Utf16

/-! ## Escapes -/

/-- A digit of a number to the base sixteen. -/
def hexDigit (n : Nat) : UInt16 := UInt16.ofNat (if n < 10 then 0x30 + n else 0x57 + n)

def unhexDigit (u : UInt16) : Option Nat :=
  let n := u.toNat
  if 0x30 ≤ n ∧ n ≤ 0x39 then some (n - 0x30)
  else if 0x61 ≤ n ∧ n ≤ 0x66 then some (n - 0x57)
  else if 0x41 ≤ n ∧ n ≤ 0x46 then some (n - 0x37)
  else none

/-- The four digits of a unit. -/
def hex4 (u : UInt16) : JsString :=
  [hexDigit (u.toNat / 0x1000), hexDigit (u.toNat / 0x100 % 0x10), hexDigit (u.toNat / 0x10 % 0x10),
    hexDigit (u.toNat % 0x10)]

/-- The unit of four digits. -/
def unhex4 (a b c d : UInt16) : Option UInt16 := do
  let a ← unhexDigit a
  let b ← unhexDigit b
  let c ← unhexDigit c
  let d ← unhexDigit d
  pure (UInt16.ofNat (a * 0x1000 + b * 0x100 + c * 0x10 + d))

/-- The units that are escaped with a letter. -/
def letters : List (UInt16 × UInt16) :=
  [(0x22, 0x22), (0x5c, 0x5c), (0x08, 0x62), (0x0c, 0x66), (0x0a, 0x6e), (0x0d, 0x72), (0x09, 0x74)]

/-- A unit that is no part of a pair. -/
def escapeUnit (u : UInt16) : JsString :=
  match letters.lookup u with
  | some letter => [0x5c, letter]
  | none =>
    if u.toNat < 0x20 || isHigh u || isLow u then 0x5c :: 0x75 :: hex4 u else [u]

/-- The unit of an escape with a letter; a slash may be escaped too. -/
def unescape (letter : UInt16) : Option UInt16 :=
  (((0x2f, 0x2f) :: letters).find? fun pair => pair.2 == letter).map (·.1)

/-- The units of a string, escaped. -/
def escape : JsString → JsString
  | [] => []
  | [u] => escapeUnit u
  | u :: v :: rest =>
    if isHigh u && isLow v then u :: v :: escape rest else escapeUnit u ++ escape (v :: rest)

/-- `JSON.stringify(s)`. -/
def quote (s : JsString) : JsString := 0x22 :: escape s ++ [0x22]

/-- The string up to the quotation mark that ends it, and what follows. -/
def unquoteRest : JsString → Option (JsString × JsString)
  | [] => none
  | u :: rest =>
    if u = 0x22 then some ([], rest)
    else if u = 0x5c then
      match rest with
      | [] => none
      | letter :: rest =>
        if letter = 0x75 then
          match rest with
          | a :: b :: c :: d :: rest =>
            match unhex4 a b c d with
            | some unit => (unquoteRest rest).map fun read => (unit :: read.1, read.2)
            | none => none
          | _ => none
        else
          match unescape letter with
          | some unit => (unquoteRest rest).map fun read => (unit :: read.1, read.2)
          | none => none
    else if u.toNat < 0x20 then none
    else (unquoteRest rest).map fun read => (u :: read.1, read.2)

/-- A quoted string at the beginning of a text, and what follows. -/
def unquote : JsString → Option (JsString × JsString)
  | [] => none
  | u :: rest => if u = 0x22 then unquoteRest rest else none

/-! ## What is quoted is read back -/

theorem unhexDigit_hexDigit {n : Nat} (digit : n < 16) : unhexDigit (hexDigit n) = some n := by
  have all : ∀ n : Fin 16, unhexDigit (hexDigit n) = some n.val := by decide
  exact all ⟨n, digit⟩

theorem unhex4_hex4 (u : UInt16) :
    unhex4 (hexDigit (u.toNat / 0x1000)) (hexDigit (u.toNat / 0x100 % 0x10))
      (hexDigit (u.toNat / 0x10 % 0x10)) (hexDigit (u.toNat % 0x10)) = some u := by
  have bound := u.toNat_lt
  simp only [unhex4, unhexDigit_hexDigit (show u.toNat / 0x1000 < 16 by omega),
    unhexDigit_hexDigit (Nat.mod_lt _ (by decide : 0 < 16)), Option.bind_eq_bind, Option.bind_some,
    Option.pure_def]
  have isUnit : u.toNat / 0x1000 * 0x1000 + u.toNat / 0x100 % 0x10 * 0x100 +
      u.toNat / 0x10 % 0x10 * 0x10 + u.toNat % 0x10 = u.toNat := by omega
  rw [isUnit, UInt16.ofNat_toNat]

/-- A unit that stands for itself. -/
theorem unquoteRest_plain {u : UInt16} (notQuote : u ≠ 0x22) (notEscape : u ≠ 0x5c)
    (printed : ¬ u.toNat < 0x20) (rest : JsString) :
    unquoteRest (u :: rest) = (unquoteRest rest).map fun read => (u :: read.1, read.2) := by
  rw [unquoteRest.eq_def]
  dsimp only
  rw [if_neg notQuote, if_neg notEscape, if_neg printed]

/-- An escape with one letter. -/
theorem unquoteRest_letter {letter unit : UInt16} (notHex : letter ≠ 0x75)
    (isUnit : unescape letter = some unit) (rest : JsString) :
    unquoteRest (0x5c :: letter :: rest) =
      (unquoteRest rest).map fun read => (unit :: read.1, read.2) := by
  rw [unquoteRest.eq_def]
  dsimp only
  rw [if_neg (by decide), if_pos rfl, if_neg notHex, isUnit]

/-- An escape with four digits. -/
theorem unquoteRest_hex {a b c d unit : UInt16} (isUnit : unhex4 a b c d = some unit)
    (rest : JsString) :
    unquoteRest (0x5c :: 0x75 :: a :: b :: c :: d :: rest) =
      (unquoteRest rest).map fun read => (unit :: read.1, read.2) := by
  rw [unquoteRest.eq_def]
  dsimp only
  rw [if_neg (by decide), if_pos rfl, if_pos rfl, isUnit]

/-- What holds of every escape with a letter. -/
theorem of_lookup {p : UInt16 × UInt16 → Bool} (all : letters.all p = true) {u letter : UInt16}
    (isLetter : letters.lookup u = some letter) : p (u, letter) = true := by
  obtain ⟨before, later, isList, -⟩ := List.lookup_eq_some_iff.mp isLetter
  refine List.all_eq_true.mp all (u, letter) ?_
  rw [isList]
  exact List.mem_append_right _ List.mem_cons_self

theorem unescape_of_lookup {u letter : UInt16} (isLetter : letters.lookup u = some letter) :
    letter ≠ 0x75 ∧ unescape letter = some u := by
  have all : (letters.all fun pair => pair.2 != 0x75 && unescape pair.2 == some pair.1) = true := by
    decide
  have both := of_lookup all isLetter
  rwa [Bool.and_eq_true, bne_iff_ne, beq_iff_eq] at both

theorem ne_of_lookup {u : UInt16} (none_ : letters.lookup u = none) : u ≠ 0x22 ∧ u ≠ 0x5c := by
  have apart := List.lookup_eq_none_iff.mp none_
  refine ⟨?_, ?_⟩
  · exact bne_iff_ne.mp (apart (0x22, 0x22) (by decide))
  · exact bne_iff_ne.mp (apart (0x5c, 0x5c) (by decide))

/-- **An escaped unit is read back.** -/
theorem unquoteRest_escapeUnit (u : UInt16) (rest : JsString) :
    unquoteRest (escapeUnit u ++ rest) =
      (unquoteRest rest).map fun read => (u :: read.1, read.2) := by
  unfold escapeUnit
  split
  · next letter isLetter =>
    obtain ⟨notHex, isUnit⟩ := unescape_of_lookup isLetter
    exact unquoteRest_letter notHex isUnit rest
  · next none_ =>
    obtain ⟨notQuote, notEscape⟩ := ne_of_lookup none_
    split
    · exact unquoteRest_hex (unhex4_hex4 u) rest
    · next plain =>
      have printed : ¬ u.toNat < 0x20 := by
        intro control
        exact plain (by rw [decide_eq_true control]; rfl)
      exact unquoteRest_plain notQuote notEscape printed rest

/-- A surrogate stands for itself when it has its partner. -/
theorem unquoteRest_surrogate {u : UInt16} (surrogate : (isHigh u || isLow u) = true)
    (rest : JsString) :
    unquoteRest (u :: rest) = (unquoteRest rest).map fun read => (u :: read.1, read.2) := by
  have above : 0xD800 ≤ u.toNat := by
    simp only [isHigh, isLow, Bool.or_eq_true, Bool.and_eq_true, decide_eq_true_eq] at surrogate
    omega
  refine unquoteRest_plain ?_ ?_ (by omega) rest
  · rintro rfl
    exact absurd above (by decide)
  · rintro rfl
    exact absurd above (by decide)

theorem unquoteRest_escape (s rest : JsString) :
    unquoteRest (escape s ++ 0x22 :: rest) = some (s, rest) := by
  induction s using escape.induct with
  | case1 =>
    rw [escape, List.nil_append, unquoteRest.eq_def]
    rfl
  | case2 u =>
    rw [escape, unquoteRest_escapeUnit, unquoteRest.eq_def]
    rfl
  | case3 u v later pair ih =>
    obtain ⟨high, low⟩ := Bool.and_eq_true_iff.mp pair
    rw [escape, if_pos pair, List.cons_append, List.cons_append,
      unquoteRest_surrogate (by rw [high]; rfl), unquoteRest_surrogate (by rw [low, Bool.or_true]), ih]
    rfl
  | case4 u v later alone ih =>
    rw [escape, if_neg alone, List.append_assoc, unquoteRest_escapeUnit, ih]
    rfl

/-- **A quoted string says where it ends**, whatever follows. -/
theorem unquote_quote (s rest : JsString) : unquote (quote s ++ rest) = some (s, rest) := by
  show unquote (0x22 :: ((escape s ++ [0x22]) ++ rest)) = _
  rw [List.append_assoc, unquote, if_pos rfl]
  exact unquoteRest_escape s rest

/-! ## What is quoted is text -/

/-- A character that a quoted string may have: no control character, and of those beyond ASCII only
what is in the string. -/
structure Printed (s : JsString) (c : Char) : Prop where
  printed : 0x20 ≤ c.toNat
  known : c.toNat < 0x7f ∨ ∀ u ∈ units c, u ∈ s

theorem Printed.mono {s s' : JsString} {c : Char} (printed : Printed s c) (subset : s ⊆ s') :
    Printed s' c :=
  ⟨printed.printed, printed.known.imp id fun known u mem => subset (known u mem)⟩

/-- The units are text, of characters that may be printed. -/
def IsText (s text : JsString) : Prop := ∃ cs, text = ofChars cs ∧ ∀ c ∈ cs, Printed s c

theorem IsText.mono {s s' text : JsString} (isText : IsText s text) (subset : s ⊆ s') :
    IsText s' text := by
  obtain ⟨cs, rfl, printed⟩ := isText
  exact ⟨cs, rfl, fun c mem => (printed c mem).mono subset⟩

theorem IsText.nil (s : JsString) : IsText s [] := ⟨[], rfl, fun _ mem => by cases mem⟩

theorem IsText.append {s text text' : JsString} (first : IsText s text) (second : IsText s text') :
    IsText s (text ++ text') := by
  obtain ⟨cs, rfl, printed⟩ := first
  obtain ⟨cs', rfl, printed'⟩ := second
  refine ⟨cs ++ cs', List.flatMap_append.symm, fun c mem => ?_⟩
  exact (List.mem_append.mp mem).elim (printed c) (printed' c)

/-- A unit of ASCII is text. -/
theorem isText_ascii {s : JsString} {u : UInt16} (low : 0x20 ≤ u.toNat) (high : u.toNat < 0x7f) :
    IsText s [u] := by
  have valid : u.toNat.isValidChar := .inl (by omega)
  have isCode : (Char.ofNat u.toNat).toNat = u.toNat := by
    rw [Char.ofNat, dif_pos valid]
    rfl
  refine ⟨[Char.ofNat u.toNat], ?_, fun c mem => ?_⟩
  · rw [ofChars, List.flatMap_singleton, units, isCode, if_pos (by omega), UInt16.ofNat_toNat]
  · rw [List.mem_singleton.mp mem]
    exact ⟨by rw [isCode]; exact low, .inl (by rw [isCode]; exact high)⟩

/-- A text of units of ASCII that are no control characters. -/
def isPlain (text : JsString) : Bool := text.all fun u => 0x20 ≤ u.toNat && u.toNat < 0x7f

theorem isText_of_isPlain {s text : JsString} (plain : isPlain text = true) : IsText s text := by
  induction text with
  | nil => exact .nil s
  | cons u text ih =>
    rw [isPlain, List.all_cons, Bool.and_eq_true, Bool.and_eq_true, decide_eq_true_eq,
      decide_eq_true_eq] at plain
    exact (isText_ascii plain.1.1 plain.1.2).append (ih plain.2)

/-- A character of a string is text, unless it is a control character. -/
theorem isText_units {s : JsString} {c : Char} (printed : 0x20 ≤ c.toNat)
    (inString : ∀ u ∈ units c, u ∈ s) : IsText s (units c) := by
  refine ⟨[c], (List.flatMap_singleton _ _).symm, fun c' mem => ?_⟩
  rw [List.mem_singleton.mp mem]
  exact ⟨printed, .inr inString⟩

theorem isPlain_hexDigit {n : Nat} (digit : n < 16) : isPlain [hexDigit n] = true := by
  have all : ∀ n : Fin 16, isPlain [hexDigit n] = true := by decide
  exact all ⟨n, digit⟩

/-- A unit that is no surrogate is a character. -/
theorem units_of_unit {u : UInt16} (alone : (isHigh u || isLow u) = false) :
    units (Char.ofNat u.toNat) = [u] ∧ (Char.ofNat u.toNat).toNat = u.toNat := by
  have bound := u.toNat_lt
  have valid : u.toNat.isValidChar := by
    simp only [isHigh, isLow, Bool.or_eq_false_iff, Bool.and_eq_false_iff,
      decide_eq_false_iff_not] at alone
    unfold Nat.isValidChar
    omega
  have isCode : (Char.ofNat u.toNat).toNat = u.toNat := by
    rw [Char.ofNat, dif_pos valid]
    rfl
  rw [units, isCode, if_pos bound, UInt16.ofNat_toNat]
  exact ⟨rfl, rfl⟩

/-- A surrogate and its partner are a character. -/
theorem units_of_pair {u v : UInt16} (high : isHigh u = true) (low : isLow v = true) :
    units (Char.ofNat (0x10000 + (u.toNat - 0xD800) * 0x400 + (v.toNat - 0xDC00))) = [u, v] ∧
      0x20 ≤ (Char.ofNat (0x10000 + (u.toNat - 0xD800) * 0x400 + (v.toNat - 0xDC00))).toNat := by
  simp only [isHigh, isLow, Bool.and_eq_true, decide_eq_true_eq] at high low
  have valid : (0x10000 + (u.toNat - 0xD800) * 0x400 + (v.toNat - 0xDC00)).isValidChar := by
    unfold Nat.isValidChar
    omega
  have isCode : (Char.ofNat (0x10000 + (u.toNat - 0xD800) * 0x400 + (v.toNat - 0xDC00))).toNat =
      0x10000 + (u.toNat - 0xD800) * 0x400 + (v.toNat - 0xDC00) := by
    rw [Char.ofNat, dif_pos valid]
    rfl
  have isHighUnit : 0xD800 + (0x10000 + (u.toNat - 0xD800) * 0x400 + (v.toNat - 0xDC00) -
      0x10000) / 0x400 = u.toNat := by omega
  have isLowUnit : 0xDC00 + (0x10000 + (u.toNat - 0xD800) * 0x400 + (v.toNat - 0xDC00) -
      0x10000) % 0x400 = v.toNat := by omega
  rw [units, isCode, if_neg (by omega), isHighUnit, isLowUnit, UInt16.ofNat_toNat,
    UInt16.ofNat_toNat]
  exact ⟨rfl, by omega⟩

theorem isText_escapeUnit (u : UInt16) : IsText [u] (escapeUnit u) := by
  unfold escapeUnit
  split
  · next letter isLetter =>
    have all : (letters.all fun pair => isPlain [0x5c, pair.2]) = true := by decide
    exact isText_of_isPlain (of_lookup all isLetter)
  · split
    · have bound := u.toNat_lt
      have digit : ∀ {n : Nat}, n < 16 → IsText [u] [hexDigit n] := fun digit =>
        isText_of_isPlain (isPlain_hexDigit digit)
      have mark : IsText [u] [0x5c, 0x75] := isText_of_isPlain (by decide)
      exact mark.append ((digit (by omega)).append ((digit (Nat.mod_lt _ (by decide))).append
        ((digit (Nat.mod_lt _ (by decide))).append (digit (Nat.mod_lt _ (by decide))))))
    · next plain =>
      simp only [Bool.or_assoc, Bool.or_eq_true, decide_eq_true_eq, not_or] at plain
      obtain ⟨isUnit, isCode⟩ := units_of_unit (u := u) (by
        simpa only [Bool.or_eq_false_iff, Bool.not_eq_true] using plain.2)
      have isText := isText_units (s := [u]) (c := Char.ofNat u.toNat) (by omega)
        (fun w mem => isUnit ▸ mem)
      rw [isUnit] at isText
      exact isText

theorem isText_escape (s : JsString) : IsText s (escape s) := by
  induction s using escape.induct with
  | case1 => exact .nil []
  | case2 u => exact isText_escapeUnit u
  | case3 u v later pair ih =>
    obtain ⟨high, low⟩ := Bool.and_eq_true_iff.mp pair
    obtain ⟨isPair, printed⟩ := units_of_pair high low
    have first := isText_units (s := [u, v]) printed fun w mem => isPair ▸ mem
    rw [isPair] at first
    rw [escape, if_pos pair]
    exact (first.mono (List.subset_append_left [u, v] later)).append
      (ih.mono (List.subset_append_right [u, v] later))
  | case4 u v later alone ih =>
    rw [escape, if_neg alone]
    exact ((isText_escapeUnit u).mono (List.subset_append_left [u] (v :: later))).append
      (ih.mono (List.subset_cons_self u (v :: later)))

/-- **A quoted string is text**, whatever the string was. -/
theorem isText_quote (s : JsString) : IsText s (quote s) := by
  have mark : IsText s [0x22] := isText_ascii (by decide) (by decide)
  exact (mark.append (isText_escape s)).append mark

/-! ## Its length -/

theorem length_escapeUnit_le (u : UInt16) : (escapeUnit u).length ≤ 6 := by
  unfold escapeUnit
  split
  · exact Nat.le_of_ble_eq_true rfl
  · split
    · exact Nat.le_refl 6
    · exact Nat.le_of_ble_eq_true rfl

theorem length_escape_le (s : JsString) : (escape s).length ≤ 6 * s.length := by
  induction s using escape.induct with
  | case1 => exact Nat.le_refl 0
  | case2 u => exact length_escapeUnit_le u
  | case3 u v later pair ih =>
    rw [escape, if_pos pair]
    simp only [List.length_cons]
    omega
  | case4 u v later alone ih =>
    have first := length_escapeUnit_le u
    rw [escape, if_neg alone, List.length_append]
    simp only [List.length_cons] at ih ⊢
    omega

/-- A quoted string is at most six times as long, with its marks. -/
theorem length_quote_le (s : JsString) : (quote s).length ≤ 6 * s.length + 2 := by
  have := length_escape_le s
  simp only [quote, List.length_append, List.length_cons, List.length_nil]
  omega

/-! ## Fields -/

/-- The units of a text. -/
def jsText (text : String) : JsString := ofChars text.toList

/-- A field: `name=value`, with the value quoted. -/
def field (name value : JsString) : JsString := name ++ jsText "=" ++ quote value

/-- Fields with a space between two of them. -/
def fieldLine : List (JsString × JsString) → JsString
  | [] => []
  | [(name, value)] => field name value
  | (name, value) :: fields => field name value ++ jsText " " ++ fieldLine fields

/-- What follows a text that is expected. -/
def expect : JsString → JsString → Option JsString
  | [], s => some s
  | _ :: _, [] => none
  | u :: text, v :: s => if u = v then expect text s else none

def readField (name s : JsString) : Option (JsString × JsString) :=
  (expect (name ++ jsText "=") s).bind unquote

/-- The values of fields with these names, and what follows. -/
def readFields : List JsString → JsString → Option (List JsString × JsString)
  | [], s => some ([], s)
  | [name], s => (readField name s).map fun read => ([read.1], read.2)
  | name :: names, s =>
    match readField name s with
    | none => none
    | some (value, s) =>
      match expect (jsText " ") s with
      | none => none
      | some s => (readFields names s).map fun read => (value :: read.1, read.2)

@[simp] theorem expect_append (text s : JsString) : expect text (text ++ s) = some s := by
  induction text with
  | nil => rfl
  | cons u text ih => rw [List.cons_append, expect, if_pos rfl, ih]

theorem readField_field (name value rest : JsString) :
    readField name (field name value ++ rest) = some (value, rest) := by
  rw [field, List.append_assoc, readField, expect_append, Option.bind_some, unquote_quote]

/-- **The fields of a line are read back**, whatever their values are and whatever follows. -/
theorem readFields_fieldLine (fields : List (JsString × JsString)) (rest : JsString) :
    readFields (fields.map (·.1)) (fieldLine fields ++ rest) =
      some (fields.map (·.2), rest) := by
  induction fields with
  | nil => rfl
  | cons first fields ih =>
    obtain ⟨name, value⟩ := first
    cases fields with
    | nil =>
      simp only [List.map_cons, List.map_nil, fieldLine, readFields, readField_field, Option.map_some]
    | cons second fields =>
      simp only [List.map_cons] at ih
      simp only [List.map_cons, fieldLine, readFields, List.append_assoc, readField_field,
        expect_append, ih, Option.map_some]

/-- A line of fields is text, if their names are. -/
theorem isText_fieldLine {s : JsString} {fields : List (JsString × JsString)}
    (names : ∀ f ∈ fields, IsText s f.1) (values : ∀ f ∈ fields, f.2 ⊆ s) :
    IsText s (fieldLine fields) := by
  have equals : IsText s (jsText "=") := isText_ascii (u := 0x3d) (by decide) (by decide)
  have space : IsText s (jsText " ") := isText_ascii (u := 0x20) (by decide) (by decide)
  induction fields with
  | nil => exact .nil s
  | cons first fields ih =>
    have isField : IsText s (field first.1 first.2) :=
      ((names first List.mem_cons_self).append equals).append
        ((isText_quote first.2).mono (values first List.mem_cons_self))
    have later := ih (fun f mem => names f (List.mem_cons_of_mem first mem))
      fun f mem => values f (List.mem_cons_of_mem first mem)
    cases fields with
    | nil => exact isField
    | cons second fields => exact (isField.append space).append later

/-- A line of fields is at most six times as long as their values, with the names and the marks. -/
theorem length_fieldLine_lt {fields : List (JsString × JsString)} (some_ : fields ≠ []) :
    (fieldLine fields).length < (fields.map fun f => f.1.length + 6 * f.2.length + 4).sum := by
  have isField : ∀ f : JsString × JsString,
      (field f.1 f.2).length < f.1.length + 6 * f.2.length + 4 := by
    intro f
    have quoted := length_quote_le f.2
    have equals : (jsText "=").length = 1 := by decide
    rw [field, List.length_append, List.length_append, equals]
    omega
  have space : (jsText " ").length = 1 := by decide
  induction fields with
  | nil => exact absurd rfl some_
  | cons first fields ih =>
    have head := isField first
    cases fields with
    | nil => exact Nat.lt_of_lt_of_eq head (Nat.add_zero _).symm
    | cons second fields =>
      have later := ih (List.cons_ne_nil second fields)
      show (field first.1 first.2 ++ jsText " " ++ fieldLine (second :: fields)).length < _
      rw [List.length_append, List.length_append, space, List.map_cons, List.sum_cons]
      omega

end QuietStorage.Lib
