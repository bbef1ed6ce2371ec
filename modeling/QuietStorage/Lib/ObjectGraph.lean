import QuietStorage.Lib.Traversal
import QuietStorage.Lib.Utf8

/-!
# Lib.ObjectGraph — values of JavaScript that share objects

A value is a primitive or refers to an object, and a `Graph` has finitely many objects: arrays, records
(plain, without a prototype, or of a class), Maps, Sets, Errors, Dates and binary data. Objects may be
shared, and may refer to one another in circles.

**Writing.** An object whose chain of prototypes ends in binary data does not take every assignment:
some properties cannot be assigned, and a typed array ignores numbers that are none of its items.

**Reading.** `toText` is what a template makes of a value, `stringOf` is `String(value)`, and
`constructorName` is `value.constructor.name` of a record. All of them may throw. Texts that the engine
makes of other data (of a Date, of bytes, the source of a function) are part of the data.

Left out: accessors and Proxies, symbols as keys, and functions in the place of `toString` or
`valueOf`.
-/

set_option autoImplicit false

namespace QuietStorage.Lib.Js

/-! ## Texts -/

/-- A text of ASCII characters. -/
def ascii (s : String) : JsString := s.toList.map fun c => UInt16.ofNat c.toNat

/-- `text.includes(part)`. -/
def includes (text part : JsString) : Bool := text.tails.any fun rest => part.isPrefixOf rest

/-- The digits of a number. -/
def decimal (n : Nat) : JsString := (Nat.toDigits 10 n).map fun c => UInt16.ofNat c.toNat

/-- A number: its text, and the byte that it is converted to. -/
structure Numeral where
  text : JsString
  toUint8 : UInt8
  deriving DecidableEq, Repr

def Numeral.ofNat (n : Nat) : Numeral := ⟨decimal n, UInt8.ofNat n⟩

/-! ## Values and objects -/

inductive Value where
  | undefined
  | null
  | boolean (b : Bool)
  | number (n : Numeral)
  | string (s : JsString)
  | bigint (n : Int)
  | symbol (description : JsString)
  | function (name source : JsString)
  | ref (r : Nat)
  deriving DecidableEq, Repr

/-- A value is a primitive, or refers to an object. -/
theorem Value.primitive_or_ref (v : Value) : (∀ r, v ≠ .ref r) ∨ ∃ r, v = .ref r := by
  cases v with
  | ref r => exact .inr ⟨r, rfl⟩
  | _ => exact .inl nofun

/-- `value == null`. -/
def Value.isNullish : Value → Bool
  | .undefined | .null => true
  | _ => false

/-- The text of a Date, which is that of the year 275760 at most. -/
abbrev IsoText := {text : JsString // text.length ≤ 27}

inductive BinaryKind where
  | buffer
  | arrayBuffer
  /-- A view, with the name of its constructor, and how many items it has if it is a typed array. -/
  | view (constructorName : JsString) (items : Option Nat)
  deriving DecidableEq, Repr

inductive Node where
  | array (items : List Value)
  /-- The name of the constructor that the record inherits, if it has a prototype, and its own
  enumerable properties. -/
  | record (constructorName : Option JsString) (fields : List (JsString × Value))
  | map (entries : List (Value × Value))
  | set (values : List Value)
  | error (constructorName name message : JsString) (stack : Option JsString) (cause : Value)
  /-- A Date has no ISO text if its time is not valid. -/
  | date (iso : Option IsoText) (text : JsString)
  | binary (kind : BinaryKind) (bytes : List UInt8) (text : JsString)
  deriving DecidableEq, Repr

/-- The values that an object holds. -/
def Node.values : Node → List Value
  | .array items => items
  | .record _ fields => fields.map Prod.snd
  | .map entries => entries.flatMap fun entry => [entry.1, entry.2]
  | .set values => values
  | .error _ _ _ _ cause => [cause]
  | .date _ _ => []
  | .binary _ _ _ => []

/-- The value refers to nothing beyond the first `size` objects. -/
def Value.Within (size : Nat) : Value → Prop
  | .ref r => r < size
  | _ => True

instance (size : Nat) : DecidablePred (Value.Within size)
  | .ref r => inferInstanceAs (Decidable (r < size))
  | .undefined | .null | .boolean _ | .number _ | .string _ | .bigint _ | .symbol _
  | .function _ _ => .isTrue trivial

def Value.isFunction : Value → Bool
  | .function _ _ => true
  | _ => false

/-- The methods that turn an object into a primitive. -/
def conversions : List JsString := [ascii "toString", ascii "valueOf"]

/-- No property of a record is there twice. -/
def Node.Distinct : Node → Prop
  | .record _ fields => (fields.map Prod.fst).Nodup
  | _ => True

instance : DecidablePred Node.Distinct
  | .record _ fields => inferInstanceAs (Decidable (fields.map Prod.fst).Nodup)
  | .array _ | .map _ | .set _ | .error _ _ _ _ _ | .date _ _ | .binary _ _ _ => .isTrue trivial

/-- No conversion is a function of the program. -/
def Node.Uncalled : Node → Prop
  | .record _ fields => ∀ field ∈ fields, field.1 ∈ conversions → field.2.isFunction = false
  | _ => True

instance : DecidablePred Node.Uncalled
  | .record _ fields =>
    inferInstanceAs
      (Decidable (∀ field ∈ fields, field.1 ∈ conversions → field.2.isFunction = false))
  | .array _ | .map _ | .set _ | .error _ _ _ _ _ | .date _ _ | .binary _ _ _ => .isTrue trivial

/-- A finite graph of objects. -/
structure Graph where
  node : Nat → Node
  size : Nat
  closed : ∀ r < size, ∀ v ∈ (node r).values, v.Within size
  /-- No object holds more than can be counted exactly. -/
  counted : ∀ r < size, (node r).values.length < 2 ^ 53
  distinct : ∀ r < size, (node r).Distinct
  uncalled : ∀ r < size, (node r).Uncalled

/-! ## Prototypes -/

/-- The properties that binary data has from its prototypes and that cannot be assigned. -/
inductive ReadOnly where
  | buffer
  | byteLength
  | byteOffset
  | length
  | bytesPerElement
  | parent
  | offset
  | maxByteLength
  | resizable
  | detached
  deriving DecidableEq, Repr

def ReadOnly.name : ReadOnly → JsString
  | .buffer => ascii "buffer"
  | .byteLength => ascii "byteLength"
  | .byteOffset => ascii "byteOffset"
  | .length => ascii "length"
  | .bytesPerElement => ascii "BYTES_PER_ELEMENT"
  | .parent => ascii "parent"
  | .offset => ascii "offset"
  | .maxByteLength => ascii "maxByteLength"
  | .resizable => ascii "resizable"
  | .detached => ascii "detached"

namespace BinaryKind

def readOnly : BinaryKind → List ReadOnly
  | .buffer => [.parent, .offset, .bytesPerElement, .buffer, .byteLength, .byteOffset, .length]
  | .arrayBuffer => [.byteLength, .maxByteLength, .resizable, .detached]
  | .view _ (some _) => [.bytesPerElement, .buffer, .byteLength, .byteOffset, .length]
  | .view _ none => [.buffer, .byteLength, .byteOffset]

/-- How many items a typed array has. -/
def items? (bytes : List UInt8) : BinaryKind → Option Nat
  | .buffer => some bytes.length
  | .arrayBuffer => none
  | .view _ items => items

end BinaryKind

/-- A chain of prototypes that ends in binary data, and the keys that an object before it has. -/
structure Chain where
  kind : BinaryKind
  items : Option Nat
  has : JsString → Bool

namespace Chain

/-- What is in the way of an assignment. -/
def refusal (chain : Chain) (key : JsString) : Option ReadOnly :=
  if chain.has key then none else chain.kind.readOnly.find? fun property => property.name == key

/-- A typed array ignores what is assigned to a number that is none of its items. -/
def ignores (isNumericIndex : JsString → Bool) (chain : Chain) (key : JsString) : Bool :=
  !chain.has key && chain.items.any fun items =>
    isNumericIndex key && !(List.range items).any fun i => decimal i == key

/-- The chain of an object with these keys. -/
def behind (own : JsString → Bool) (chain : Chain) : Chain :=
  { chain with has := fun key => own key || chain.has key }

end Chain

/-- What is thrown. -/
inductive Exception where
  /-- A property of `undefined` is read. -/
  | ofUndefined
  /-- A property of `null` is read. -/
  | ofNull
  /-- A symbol is converted to a string. -/
  | symbolText
  /-- An object cannot be converted to a primitive. -/
  | noPrimitive
  | invalidTime
  /-- A property is assigned that cannot be. -/
  | readOnly (property : ReadOnly)
  | stackOverflow
  deriving DecidableEq, Repr

namespace Graph

/-! ## Reading -/

section
variable (g : Graph)

/-- What an item adds to the text of its array. -/
def itemText (recur : Value → Except Exception JsString) (v : Value) : Except Exception JsString :=
  if v.isNullish then .ok [] else recur v

/-- `ToString`, with the arrays that are being joined: an array among its own items is empty. -/
def textStep (recur : List Nat → Value → Except Exception JsString) (joining : List Nat) :
    Value → Except Exception JsString
  | .undefined => .ok (ascii "undefined")
  | .null => .ok (ascii "null")
  | .boolean b => .ok (ascii (if b then "true" else "false"))
  | .number n => .ok n.text
  | .string s => .ok s
  | .bigint n => .ok ((if n < 0 then ascii "-" else []) ++ decimal n.natAbs)
  | .symbol _ => .error .symbolText
  | .function _ source => .ok source
  | .ref r =>
    match g.node r with
    | .array items =>
      if r ∈ joining then .ok []
      else
        (items.mapM (itemText (recur (r :: joining)))).map ((ascii ",").intercalate ·)
    | .record constructorName fields =>
      if constructorName.isNone || (fields.lookup (ascii "toString")).isSome then
        .error .noPrimitive
      else .ok (ascii "[object Object]")
    | .map _ => .ok (ascii "[object Map]")
    | .set _ => .ok (ascii "[object Set]")
    | .error _ name message _ _ =>
      .ok (if name = [] then message else if message = [] then name else name ++ ascii ": " ++ message)
    | .date _ text => .ok text
    | .binary _ _ text => .ok text

def textWithin : Nat → List Nat → Value → Except Exception JsString
  | 0 => fun _ _ => .ok []
  | depth + 1 => g.textStep (textWithin depth)

/-- What a template makes of a value. No more arrays are joined inside one another than there are. -/
def toText (v : Value) : Except Exception JsString := g.textWithin (g.size + 1) [] v

/-- `String(value)`. -/
def stringOf : Value → Except Exception JsString
  | .symbol description => .ok (ascii "Symbol(" ++ description ++ ascii ")")
  | v => g.toText v

/-- `value.name`. -/
def nameOf : Value → Except Exception Value
  | .undefined => .error .ofUndefined
  | .null => .error .ofNull
  | .function name _ => .ok (.string name)
  | .ref r =>
    match g.node r with
    | .record _ fields => .ok ((fields.lookup (ascii "name")).getD .undefined)
    | .error _ name _ _ _ => .ok (.string name)
    | _ => .ok .undefined
  | _ => .ok .undefined

/-- `record.constructor.name`. -/
def constructorName (inherited : Option JsString) (fields : List (JsString × Value)) :
    Except Exception Value :=
  match fields.lookup (ascii "constructor") with
  | some own => g.nameOf own
  | none =>
    match inherited with
    | some name => .ok (.string name)
    | none => .error .ofUndefined

/-- `Array.isArray`, with the items. -/
def items? : Value → Option (List Value)
  | .ref r =>
    match g.node r with
    | .array items => some items
    | _ => none
  | _ => none

end

/-! ## Inside a graph -/

section
variable {g : Graph}

theorem mem_of_lookup {κ ω : Type} [BEq κ] [LawfulBEq κ] {l : List (κ × ω)} {k : κ} {v : ω}
    (found : l.lookup k = some v) : (k, v) ∈ l := by
  obtain ⟨l₁, l₂, rfl, _⟩ := List.lookup_eq_some_iff.mp found
  simp

theorem within_of_record (g : Graph) {r : Nat} (within : r < g.size) {name : Option JsString}
    {fields : List (JsString × Value)} (isNode : g.node r = .record name fields) :
    ∀ field ∈ fields, field.2.Within g.size := by
  intro field mem
  refine g.closed r within field.2 ?_
  rw [isNode]
  exact List.mem_map_of_mem mem

theorem within_of_map (g : Graph) {r : Nat} (within : r < g.size) {entries : List (Value × Value)}
    (isNode : g.node r = .map entries) :
    ∀ entry ∈ entries, entry.1.Within g.size ∧ entry.2.Within g.size := by
  intro entry mem
  have inside : ∀ v ∈ [entry.1, entry.2], v.Within g.size := by
    intro v held
    refine g.closed r within v ?_
    rw [isNode]
    exact List.mem_flatMap.mpr ⟨entry, mem, held⟩
  simpa using inside

/-- The name of a constructor is a value of the graph. -/
theorem constructorName_within {inherited : Option JsString} {fields : List (JsString × Value)}
    (within : ∀ field ∈ fields, field.2.Within g.size) {v : Value}
    (isName : g.constructorName inherited fields = .ok v) : v.Within g.size := by
  unfold constructorName at isName
  split at isName
  · next own found =>
    have inside := within _ (mem_of_lookup found)
    unfold nameOf at isName
    split at isName
    · cases isName
    · cases isName
    · cases isName
      trivial
    · next r =>
      split at isName
      · next name fields isNode =>
        cases isName
        cases named : fields.lookup (ascii "name") with
        | none => trivial
        | some v => exact g.within_of_record inside isNode _ (mem_of_lookup named)
      · cases isName
        trivial
      · cases isName
        trivial
    · cases isName
      trivial
  · split at isName
    · cases isName
      trivial
    · cases isName

end

end Graph

end QuietStorage.Lib.Js
