import QuietStorage.Logger.Inside

/-!
# Logger.Bounds — how large an output can be

**What is expected** of a class of values that are logged (`OutputsBounded`): there are constants such
that their outputs have no string or key of more than 256 characters, no array of more than 51 items, no
record of more keys, and no deeper nesting. A value of the input that stands in an output counts with
what it holds.

**When it is so** (`outputsBounded_iff`). Strings are cut, but what is written out in other ways is not:
keys, the names of functions, symbols, constructors and errors, and the digits of big integers. Neither
is a value that is taken for a type, and an Error has as many causes as it has. `Limited` says for a
class that all of this is short, by one constant, where it is shown.

An output at a depth is nested by what is below, three levels for a Map, and by what is at the end. What
is shown is nested at least as deep as its call.
-/

set_option autoImplicit false

namespace QuietStorage.Logger

open Lib Lib.Js Lib.Traversal Filter

/-! ## Sizes -/

/-- The texts that an object of the input has of its own. -/
def ownTexts : Node → List JsString
  | .record _ fields => fields.map Prod.fst
  | .error _ name message stack _ => name :: message :: stack.toList
  | _ => []

/-- An object of the input holds no more than so much. -/
def Few (keys : Nat) : Node → Prop
  | .array items => items.length ≤ MAX_ARRAY_ITEMS + 1
  | .record _ fields => fields.length ≤ keys
  | .map entries => entries.length ≤ keys
  | .set values => values.length ≤ keys
  | .binary _ bytes _ => bytes.length ≤ keys
  | .error _ _ _ _ _ | .date _ _ => True

section
variable (g : Graph) (keys : Nat)

/-- The value of the input is bounded. -/
def BoundedValue : (nesting : Nat) → Value → Prop
  | _, .string s => s.length ≤ MAX_STRING_LENGTH
  | 0, .ref _ => False
  | nesting + 1, .ref r =>
    (∀ text ∈ ownTexts (g.node r), text.length ≤ MAX_STRING_LENGTH) ∧ Few keys (g.node r) ∧
      ∀ v ∈ (g.node r).values, BoundedValue nesting v
  | _, _ => True

/-- **The output is bounded.** -/
inductive Bounded : (nesting : Nat) → Output → Prop
  | value {nesting : Nat} {v : Value} (here : BoundedValue g keys nesting v) :
    Bounded nesting (.value v)
  | binary {nesting r : Nat} {kind : BinaryKind} {bytes : List UInt8}
    (here : BoundedValue g keys nesting (.ref r)) : Bounded nesting (.binary r kind bytes)
  | array {nesting : Nat} {items : List Output} (few : items.length ≤ MAX_ARRAY_ITEMS + 1)
    (each : ∀ out ∈ items, Bounded nesting out) : Bounded (nesting + 1) (.array items)
  | record {nesting : Nat} {prototype : Option Output} {fields : List (JsString × Output)}
    (few : fields.length ≤ keys) (short : ∀ field ∈ fields, field.1.length ≤ MAX_STRING_LENGTH)
    (above : ∀ out ∈ prototype, Bounded nesting out)
    (each : ∀ field ∈ fields, Bounded nesting field.2) : Bounded (nesting + 1) (.record prototype fields)

end

/-- **What is expected**: the outputs are bounded by constants. -/
def OutputsBounded (engine : Engine) (inputs : Input → Prop) : Prop :=
  ∃ keys nesting, ∀ input, inputs input → ∀ᶠ stack in atTop, ∀ out,
    sanitizeLogValue engine input.graph stack input.value = .ok out →
      Bounded input.graph keys nesting out

/-! ## The condition -/

/-- What is written out in full is short. -/
def ShortPrimitive : Value → Prop
  | .bigint n => (decimal n.natAbs).length ≤ if n < 0 then 254 else 255
  | .symbol description => description.length ≤ 248
  | .function name _ => name.length ≤ 245
  | _ => True

/-- What a record takes for its type is short, at the depth limit as a text; and so are the keys that are
gone through. -/
def ShortRecord (g : Graph) (limit depth : Nat) (inherited : Option JsString)
    (fields : List (JsString × Value)) : Prop :=
  ∀ type, g.constructorName inherited fields = .ok type →
    if MAX_DEPTH ≤ depth then ∀ text, g.toText type = .ok text → text.length ≤ 245
    else
      (∀ field ∈ fields.take MAX_OBJECT_KEYS, field.1.length ≤ MAX_STRING_LENGTH) ∧
        ((∀ field ∈ fields.take MAX_OBJECT_KEYS, field.1 ≠ ascii "type") →
          BoundedValue g limit limit type)

/-- The object's own names are short. -/
def ShortNode (g : Graph) (limit depth : Nat) (seen : List Nat) (r : Nat) : Node → Prop
  | .error constructorName name _ _ _ =>
    constructorName.length ≤ MAX_STRING_LENGTH ∧ name.length ≤ MAX_STRING_LENGTH
  | .binary (.view constructorName _) _ _ => constructorName.length ≤ MAX_STRING_LENGTH
  | .record inherited fields =>
    asSerializedBuffer g fields = none → r ∉ seen → ShortRecord g limit depth inherited fields
  | _ => True

def ShortValue (g : Graph) (limit depth : Nat) (seen : List Nat) : Value → Prop
  | .ref r => ShortNode g limit depth seen r (g.node r)
  | v => ShortPrimitive v

/-- The call is not too deep, and what it is for is short, or redacted. -/
def ShortCall (g : Graph) (limit : Nat) : State → Prop
  | (.call depth v key, seen) =>
    depth ≤ limit ∧ (redacted ⟨true, true⟩ key = false → ShortValue g limit depth seen v)
  | _ => True

/-- **The condition**: whatever is shown is short, by a constant. -/
def Limited (engine : Engine) (inputs : Input → Prop) : Prop :=
  ∃ limit, ∀ input, inputs input → ∀ state, Shown engine input ⟨true, true⟩ state →
    ShortCall input.graph limit state

/-! ## Bounds that grow -/

section
variable {g : Graph} {keys keys' nesting nesting' : Nat}

theorem Few.mono {node : Node} (few : Few keys node) (le : keys ≤ keys') : Few keys' node := by
  cases node with
  | array items => exact few
  | record name fields => exact le_trans few le
  | map entries => exact le_trans few le
  | set values => exact le_trans few le
  | binary kind bytes text => exact le_trans few le
  | error constructorName name message stack cause => trivial
  | date iso text => trivial

theorem BoundedValue.mono {v : Value} (bounded : BoundedValue g keys nesting v)
    (leKeys : keys ≤ keys') (leNesting : nesting ≤ nesting') : BoundedValue g keys' nesting' v := by
  induction nesting generalizing v nesting' with
  | zero =>
    cases v with
    | string s => cases nesting' <;> exact bounded
    | ref r => cases bounded
    | _ => cases nesting' <;> trivial
  | succ nesting ih =>
    obtain ⟨nesting', rfl⟩ : ∃ n, nesting' = n + 1 := ⟨nesting' - 1, by omega⟩
    cases v with
    | ref r =>
      obtain ⟨texts, few, each⟩ := bounded
      exact ⟨texts, few.mono leKeys, fun v held => ih (each v held) (Nat.le_of_succ_le_succ leNesting)⟩
    | _ => exact bounded

theorem Bounded.mono {out : Output} (bounded : Bounded g keys nesting out)
    (le : nesting ≤ nesting') : Bounded g keys nesting' out := by
  induction bounded generalizing nesting' with
  | value here => exact .value (here.mono le_rfl le)
  | binary here => exact .binary (here.mono le_rfl le)
  | array few _ ih =>
    obtain ⟨nesting', rfl⟩ : ∃ n, nesting' = n + 1 := ⟨nesting' - 1, by omega⟩
    exact .array few fun out mem => ih out mem (Nat.le_of_succ_le_succ le)
  | record few short _ _ above each =>
    obtain ⟨nesting', rfl⟩ : ∃ n, nesting' = n + 1 := ⟨nesting' - 1, by omega⟩
    exact .record few short (fun out mem => above out mem (Nat.le_of_succ_le_succ le))
      fun field mem => each field mem (Nat.le_of_succ_le_succ le)

end

/-! ## What is bounded -/

section
variable {g : Graph} {keys nesting : Nat}

theorem boundedValue_string {s : JsString} :
    BoundedValue g keys nesting (.string s) ↔ s.length ≤ MAX_STRING_LENGTH := by
  cases nesting <;> rfl

theorem bounded_text_iff {s : JsString} :
    Bounded g keys nesting (.text s) ↔ s.length ≤ MAX_STRING_LENGTH := by
  constructor
  · intro bounded
    cases bounded with
    | value here => exact boundedValue_string.mp here
  · exact fun short => .value (boundedValue_string.mpr short)

theorem bounded_text {s : JsString} (short : s.length ≤ MAX_STRING_LENGTH) :
    Bounded g keys nesting (.text s) := bounded_text_iff.mpr short

theorem bounded_count (n : Nat) : Bounded g keys nesting (.count n) :=
  .value (by cases nesting <;> trivial)

theorem bounded_boolean (b : Bool) : Bounded g keys nesting (.value (.boolean b)) :=
  .value (by cases nesting <;> trivial)

theorem bounded_undefined : Bounded g keys nesting (.value .undefined) :=
  .value (by cases nesting <;> trivial)

theorem bounded_plain {fields : List (JsString × Output)} (few : fields.length ≤ keys)
    (short : ∀ key ∈ fields.map Prod.fst, key.length ≤ MAX_STRING_LENGTH)
    (each : ∀ field ∈ fields, Bounded g keys nesting field.2) :
    Bounded g keys (nesting + 1) (.plain fields) :=
  .record few (fun field mem => short field.1 (List.mem_map_of_mem mem)) nofun each

theorem bounded_plain_of {fields : List (JsString × Output)} (few : fields.length ≤ keys)
    (each : ∀ field ∈ fields, field.1.length ≤ MAX_STRING_LENGTH ∧ Bounded g keys nesting field.2) :
    Bounded g keys (nesting + 1) (.plain fields) :=
  .record few (fun field mem => (each field mem).1) nofun fun field mem => (each field mem).2

theorem length_truncateString (value : JsString) :
    (truncateString value).length ≤ MAX_STRING_LENGTH := by
  have suffix : TRUNCATION_SUFFIX.length = 14 := by decide
  unfold truncateString
  split
  · assumption
  · rw [List.length_append, List.length_take, suffix]
    simp only [MAX_STRING_LENGTH]
    omega

theorem length_decimal {n : Nat} (exact_ : n < 2 ^ 53) : (decimal n).length ≤ 16 := by
  rw [decimal, List.length_map]
  exact (Nat.length_toDigits_le_iff (by decide) (by decide)).mpr (exact_.trans (by decide))

theorem length_hex (bytes : List UInt8) : (hex bytes).length = 2 * bytes.length := by
  induction bytes with
  | nil => rfl
  | cons byte bytes ih =>
    rw [hex, List.flatMap_cons, List.length_append, ← hex, ih]
    simp only [List.length_cons, List.length_nil]
    omega

theorem bounded_shown (value : JsString) : Bounded g keys nesting (shown ⟨true, true⟩ value) :=
  bounded_text (length_truncateString value)

/-- A text in a frame, such as a marker. -/
theorem bounded_framed_iff {before text after : JsString} :
    Bounded g keys nesting (.text (before ++ text ++ after)) ↔
      before.length + text.length + after.length ≤ MAX_STRING_LENGTH := by
  rw [bounded_text_iff, List.length_append, List.length_append]

/-- What is written out for a primitive is bounded if the primitive is short. -/
theorem sanitizePrimitive_bounded_iff {v : Value} {out : Output}
    (isOut : sanitizePrimitive ⟨true, true⟩ v = some out) :
    Bounded g keys nesting out ↔ ShortPrimitive v := by
  cases v with
  | ref r => cases isOut
  | string s =>
    cases isOut
    exact iff_of_true (bounded_shown s) trivial
  | bigint n =>
    cases isOut
    have sign : (ascii "-").length = 1 ∧ (ascii "n").length = 1 := by decide
    rw [bounded_framed_iff]
    simp only [ShortPrimitive, MAX_STRING_LENGTH]
    split
    · omega
    · rw [List.length_nil]
      omega
  | symbol description =>
    cases isOut
    have frame : (ascii "Symbol(").length = 7 ∧ (ascii ")").length = 1 := by decide
    rw [bounded_framed_iff]
    simp only [ShortPrimitive, MAX_STRING_LENGTH]
    omega
  | function name source =>
    cases isOut
    have frame : (ascii "[Function ").length = 10 ∧ (ascii "]").length = 1 ∧
        (ascii "anonymous").length = 9 := by decide
    rw [bounded_framed_iff]
    simp only [ShortPrimitive, MAX_STRING_LENGTH]
    split
    · omega
    · omega
  | _ =>
    cases isOut
    exact iff_of_true (.value (by cases nesting <;> trivial)) trivial

/-- What is said of binary data. -/
theorem description_bounded {type : JsString} {byteLength : Nat} {preview : Output} {truncated : Bool}
    (enough : 4 ≤ keys) (short : type.length ≤ MAX_STRING_LENGTH)
    (bounded : Bounded g keys nesting preview) :
    Bounded g keys (nesting + 1)
      (.plain [(ascii "type", .text type), (ascii "byteLength", .count byteLength),
        (ascii "previewHex", preview), (ascii "truncated", .value (.boolean truncated))]) := by
  have names : ∀ key ∈ [ascii "type", ascii "byteLength", ascii "previewHex", ascii "truncated"],
      key.length ≤ MAX_STRING_LENGTH := by decide
  refine bounded_plain enough names ?_
  simp only [List.forall_mem_cons]
  exact ⟨bounded_text short, bounded_count _, bounded, bounded_boolean _, nofun⟩

theorem hex_bounded {bytes : List UInt8} (few : bytes.length ≤ BINARY_PREVIEW_BYTES) :
    Bounded g keys nesting (.text (hex bytes)) := by
  refine bounded_text ?_
  rw [length_hex]
  simp only [MAX_STRING_LENGTH, BINARY_PREVIEW_BYTES] at few ⊢
  omega

theorem describeBytes_bounded {type : JsString} {bytes : List UInt8} (enough : 4 ≤ keys)
    (short : type.length ≤ MAX_STRING_LENGTH) :
    Bounded g keys (nesting + 1) (describeBytes type bytes) :=
  description_bounded enough short (hex_bounded (List.length_take_le _ bytes))

theorem describeBinary_bounded {r limit depth : Nat} {seen : List Nat} {kind : BinaryKind}
    {bytes : List UInt8} {text : JsString} (enough : 4 ≤ keys)
    (short : ShortNode g limit depth seen r (.binary kind bytes text)) :
    Bounded g keys (nesting + 1) (describeBinary ⟨true, true⟩ r kind bytes) := by
  cases kind with
  | buffer => exact describeBytes_bounded enough (by decide)
  | arrayBuffer => exact describeBytes_bounded enough (by decide)
  | view constructorName items => exact describeBytes_bounded enough short

theorem describeSerializedBuffer_bounded {data : Value} {items : List Value} (enough : 4 ≤ keys) :
    Bounded g keys (nesting + 1) (describeSerializedBuffer ⟨true, true⟩ data items) := by
  refine description_bounded enough (by decide) ?_
  split
  · have few := List.length_filterMap_le byteOf (items.take BINARY_PREVIEW_BYTES)
    exact hex_bounded (few.trans (List.length_take_le _ items))
  · exact bounded_undefined

theorem length_errorOutput (constructorName name message : JsString) (stack : Option JsString) :
    (errorOutput ⟨true, true⟩ constructorName name message stack).length ≤ 4 := by
  cases stack with
  | none => simp [errorOutput]
  | some stack => simp [errorOutput]

theorem errorOutput_bounded {constructorName name message : JsString} {stack : Option JsString}
    (short : constructorName.length ≤ MAX_STRING_LENGTH ∧ name.length ≤ MAX_STRING_LENGTH) :
    ∀ field ∈ errorOutput ⟨true, true⟩ constructorName name message stack,
      field.1.length ≤ MAX_STRING_LENGTH ∧ Bounded g keys nesting field.2 := by
  have names : (ascii "type").length ≤ MAX_STRING_LENGTH ∧ (ascii "name").length ≤ MAX_STRING_LENGTH ∧
      (ascii "message").length ≤ MAX_STRING_LENGTH ∧ (ascii "stack").length ≤ MAX_STRING_LENGTH := by
    decide
  have three : ∀ field ∈ [(ascii "type", Output.text constructorName), (ascii "name", .text name),
      (ascii "message", shown ⟨true, true⟩ message)],
      field.1.length ≤ MAX_STRING_LENGTH ∧ Bounded g keys nesting field.2 := by
    simp only [List.forall_mem_cons]
    exact ⟨⟨names.1, bounded_text short.1⟩, ⟨names.2.1, bounded_text short.2⟩,
      ⟨names.2.2.1, bounded_shown message⟩, nofun⟩
  intro field mem
  rcases List.mem_append.mp mem with mem | mem
  · exact three field mem
  · cases stack with
    | none => cases mem
    | some stack =>
      rw [List.mem_singleton.mp mem]
      exact ⟨names.2.2.2, bounded_shown stack⟩

/-- The output for an Error with a cause. -/
theorem caused_bounded {constructorName name message : JsString} {stack : Option JsString}
    {sanitized : Output} (enough : 5 ≤ keys)
    (short : constructorName.length ≤ MAX_STRING_LENGTH ∧ name.length ≤ MAX_STRING_LENGTH)
    (bounded : Bounded g keys nesting sanitized) :
    Bounded g keys (nesting + 1)
      (.plain (errorOutput ⟨true, true⟩ constructorName name message stack ++
        [(ascii "cause", sanitized)])) := by
  have named : (ascii "cause").length ≤ MAX_STRING_LENGTH := by decide
  have few := length_errorOutput constructorName name message stack
  refine bounded_plain_of ?_ fun field mem => ?_
  · rw [List.length_append, List.length_singleton]
    omega
  · rcases List.mem_append.mp mem with mem | mem
    · exact errorOutput_bounded short field mem
    · rw [List.mem_singleton.mp mem]
      exact ⟨named, bounded⟩

theorem length_visible {α : Type} (limit : Nat) (items : List α) :
    (visible ⟨true, true⟩ limit items).length ≤ limit := by
  rw [visible, if_pos rfl, List.length_take]
  omega

/-- With its marker, an array has one item more than are gone through. -/
theorem marked_bounded {outs : List Output} {length : Nat} (enough : 4 ≤ keys)
    (few : outs.length ≤ MAX_ARRAY_ITEMS) (each : ∀ out ∈ outs, Bounded g keys (nesting + 1) out) :
    Bounded g keys (nesting + 2) (marked ⟨true, true⟩ outs length) := by
  have names : ∀ key ∈ [ascii "type", ascii "omittedItems"], key.length ≤ MAX_STRING_LENGTH := by
    decide
  unfold marked appendTruncationMarker
  rw [if_pos rfl]
  split
  · exact .array (few.trans (Nat.le_succ _)) each
  · refine .array ?_ fun out mem => ?_
    · rw [List.length_append]
      exact Nat.add_le_add_right few 1
    · rcases List.mem_append.mp mem with mem | mem
      · exact each out mem
      · rw [List.mem_singleton.mp mem]
        refine bounded_plain (le_trans (show 2 ≤ 4 by decide) enough) names ?_
        simp only [List.forall_mem_cons]
        exact ⟨bounded_text (by decide), bounded_count _, nofun⟩

/-- The output for a Map or a Set. -/
theorem collection_bounded {type key : JsString} {outs : List Output} {size : Nat} (enough : 4 ≤ keys)
    (shortType : type.length ≤ MAX_STRING_LENGTH) (shortKey : key.length ≤ MAX_STRING_LENGTH)
    (few : outs.length ≤ MAX_ARRAY_ITEMS) (each : ∀ out ∈ outs, Bounded g keys (nesting + 1) out) :
    Bounded g keys (nesting + 3)
      (.plain [(ascii "type", .text type), (ascii "size", .count size),
        (key, marked ⟨true, true⟩ outs size)]) := by
  have names : (ascii "type").length ≤ MAX_STRING_LENGTH ∧
      (ascii "size").length ≤ MAX_STRING_LENGTH := by decide
  refine bounded_plain_of (le_trans (show 3 ≤ 4 by decide) enough) ?_
  simp only [List.forall_mem_cons]
  exact ⟨⟨names.1, bounded_text shortType⟩, ⟨names.2, bounded_count size⟩,
    ⟨shortKey, marked_bounded enough few each⟩, nofun⟩

theorem singleton_bounded {out : Output} (bounded : Bounded g keys nesting out) :
    Bounded g keys (nesting + 1) (.array [out]) := by
  refine .array (show 1 ≤ MAX_ARRAY_ITEMS + 1 by decide) fun out mem => ?_
  rwa [List.mem_singleton.mp mem]

/-- What stands for a collection at the depth limit. -/
theorem deep_bounded {before : JsString} {size : Nat} (short : before.length ≤ 23)
    (exact_ : size < 2 ^ 53) :
    Bounded g keys nesting (.text (before ++ decimal size ++ ascii "]")) := by
  have after : (ascii "]").length = 1 := by decide
  have digits := length_decimal exact_
  refine bounded_framed_iff.mpr ?_
  simp only [MAX_STRING_LENGTH]
  omega

theorem unserializable_bounded (engine : Engine) (error : Exception) :
    Bounded g keys nesting (unserializable engine error) := by
  have frame : (ascii "[Unserializable: ").length = 17 ∧ (ascii "]").length = 1 := by decide
  have message := engine.short error
  refine bounded_framed_iff.mpr ?_
  simp only [MAX_STRING_LENGTH]
  omega

theorem length_pairs (outs : List Output) : 2 * (pairs outs).length ≤ outs.length := by
  induction outs using pairs.induct with
  | case1 key value rest ih =>
    rw [pairs, List.length_cons, List.length_cons, List.length_cons]
    omega
  | case2 outs short =>
    rw [pairs]
    · exact Nat.zero_le _
    · exact short

theorem pairs_bounded {outs : List Output} (each : ∀ out ∈ outs, Bounded g keys nesting out) :
    ∀ out ∈ pairs outs, Bounded g keys (nesting + 1) out := by
  induction outs using pairs.induct with
  | case1 key value rest ih =>
    simp only [List.forall_mem_cons, pairs] at each ⊢
    refine ⟨.array (show 2 ≤ MAX_ARRAY_ITEMS + 1 by decide) ?_, ih each.2.2⟩
    simp only [List.forall_mem_cons]
    exact ⟨each.1, each.2.1, List.forall_mem_nil _⟩
  | case2 outs short =>
    rw [pairs]
    · exact List.forall_mem_nil _
    · exact short

/-- What a container is replaced by, and what is made of its parts: at most three levels more. -/
theorem container_bounded {r : Nat} (within : r < g.size) {marker atLimit : Output} {parts : List Part}
    {finish : List Output → Output} (enough : 4 ≤ keys)
    (container : Container g ⟨true, true⟩ (g.node r) marker atLimit parts finish) :
    Bounded g keys (nesting + 1) marker ∧ Bounded g keys (nesting + 1) atLimit ∧
      ∀ outs, outs.length = parts.length → (∀ out ∈ outs, Bounded g keys (nesting + 1) out) →
        Bounded g keys (nesting + 4) (finish outs) := by
  have counted := g.counted r within
  generalize g.node r = node at container counted
  cases container with
  | array items =>
    refine ⟨singleton_bounded (bounded_text (by decide)),
      singleton_bounded (deep_bounded (by decide) counted), fun outs length each => ?_⟩
    rw [List.length_map] at length
    exact (marked_bounded enough (length ▸ length_visible _ _) each).mono (by omega)
  | set values =>
    refine ⟨bounded_text (by decide), deep_bounded (by decide) counted, fun outs length each => ?_⟩
    rw [List.length_map] at length
    exact (collection_bounded enough (by decide) (by decide) (length ▸ length_visible _ _) each).mono
      (by omega)
  | map entries =>
    have few : entries.length < 2 ^ 53 := by
      have double : (Node.map entries).values.length = 2 * entries.length := by
        simp [Node.values, Nat.mul_comm]
      omega
    refine ⟨bounded_text (by decide), deep_bounded (by decide) few, fun outs length each => ?_⟩
    have half : (pairs outs).length ≤ MAX_ARRAY_ITEMS := by
      have least := length_pairs outs
      rw [length, length_entryParts] at least
      have some_ := length_visible MAX_ARRAY_ITEMS entries
      omega
    exact collection_bounded enough (by decide) (by decide) half (pairs_bounded each)

end

/-! ## What is short has bounded outputs -/

/-- How deep an output can be nested at a depth. -/
def nestingBound (limit depth : Nat) : Nat := 3 * (limit + 1 - depth) + limit + 4

theorem nestingBound_succ {limit depth : Nat} (le : depth ≤ limit) :
    nestingBound limit depth = nestingBound limit (depth + 1) + 3 := by
  unfold nestingBound
  omega

theorem le_nestingBound (limit depth : Nat) : limit + 4 ≤ nestingBound limit depth := by
  unfold nestingBound
  omega

section
variable {engine : Engine} {g : Graph} {limit depth : Nat} {seen : List Nat} {v : Value}
  {key : Option JsString} {out : Output}

theorem rests_bounded (within : v.Within g.size) (short : ShortCall g limit (.call depth v key, seen))
    (isTurn : turn g ⟨true, true⟩ depth seen v key = .rests out) :
    Bounded g (limit + 102) (nestingBound limit depth) out := by
  obtain ⟨nesting, isNesting⟩ : ∃ nesting, nestingBound limit depth = nesting + 1 :=
    ⟨nestingBound limit depth - 1, by have least := le_nestingBound limit depth; omega⟩
  have enough : 4 ≤ limit + 102 := by omega
  have spec : CallTurn g ⟨true, true⟩ depth seen v key (turn g ⟨true, true⟩ depth seen v key) :=
    turn_spec v key
  rw [isTurn] at spec
  rw [isNesting]
  cases spec with
  | redacted _ => exact bounded_text (by decide)
  | primitive notRedacted isPrimitive =>
    refine (sanitizePrimitive_bounded_iff isPrimitive).mpr ?_
    have isShort := short.2 notRedacted
    cases v with
    | ref r => cases isPrimitive
    | _ => exact isShort
  | @object r _ _ notRedacted isNode =>
    have isShort : ShortNode g limit depth seen r (g.node r) := short.2 notRedacted
    have replaced : ∀ marker atLimit parts finish,
        Container g ⟨true, true⟩ (g.node r) marker atLimit parts finish →
          Bounded g (limit + 102) (nesting + 1) marker ∧
            Bounded g (limit + 102) (nesting + 1) atLimit := fun _ _ _ _ container =>
      ⟨(container_bounded within enough container).1, (container_bounded within enough container).2.1⟩
    generalize g.node r = node at isNode isShort replaced
    cases isNode with
    | binary kind bytes text => exact describeBinary_bounded enough isShort
    | error absent =>
      exact bounded_plain_of ((length_errorOutput _ _ _ _).trans enough) (errorOutput_bounded isShort)
    | date iso text => exact bounded_text (iso.2.trans (by decide))
    | seen container _ => exact (replaced _ _ _ _ container).1
    | deep container _ _ => exact (replaced _ _ _ _ container).2
    | buffer _ => exact describeSerializedBuffer_bounded enough
    | seenRecord _ _ => exact bounded_text (by decide)
    | deepRecord notBuffer fresh isType deep isText =>
      have deep : MAX_DEPTH ≤ depth := by simpa [tooDeep] using deep
      have record := isShort notBuffer fresh _ isType
      rw [if_pos deep] at record
      have frame : (ascii "[MaxDepth:").length = 10 ∧ (ascii "]").length = 1 := by decide
      have text := record _ isText
      refine bounded_framed_iff.mpr ?_
      simp only [MAX_STRING_LENGTH]
      omega

theorem opens_bounded {r : Nat} {type : Value} {fields : List (JsString × Value)} {filling : Filling}
    (short : ShortCall g limit (.call depth v key, seen))
    (isTurn : turn g ⟨true, true⟩ depth seen v key = .opens r type fields)
    (filled : Filled (Bounded g (limit + 102) (nestingBound limit (depth + 1))) type
      ((visible ⟨true, true⟩ MAX_OBJECT_KEYS fields).map Prod.fst) filling) :
    Bounded g (limit + 102) (nestingBound limit depth) filling.output := by
  obtain ⟨notRedacted, rfl, fresh, shallow, inherited, isNode, notBuffer, isType⟩ := turn_opens isTurn
  have isShort : ShortNode g limit depth seen r (g.node r) := short.2 notRedacted
  rw [isNode] at isShort
  have record := isShort notBuffer fresh type isType
  have shallow : ¬MAX_DEPTH ≤ depth := by simpa [tooDeep] using shallow
  rw [if_neg shallow] at record
  obtain ⟨shortKeys, typed⟩ := record
  have named : (ascii "type").length ≤ MAX_STRING_LENGTH ∧
      (ascii "__truncatedKeys").length ≤ MAX_STRING_LENGTH := by decide
  have each : ∀ field ∈ filling.fields, field.1.length ≤ MAX_STRING_LENGTH ∧
      Bounded g (limit + 102) (nestingBound limit (depth + 1)) field.2 := by
    intro field mem
    rcases filled.field field mem with ⟨rfl, unwritten⟩ | ⟨n, rfl⟩ | ⟨mem, good⟩
    · have bounded : BoundedValue g limit limit type :=
        typed fun field mem isKey => unwritten (isKey ▸ List.mem_map_of_mem mem)
      have least := le_nestingBound limit (depth + 1)
      exact ⟨named.1, .value (bounded.mono (by omega) (by omega))⟩
    · exact ⟨named.2, bounded_count n⟩
    · obtain ⟨field', mem', isKey⟩ := List.mem_map.mp mem
      exact ⟨isKey ▸ shortKeys field' mem', good⟩
  have few : filling.fields.length ≤ limit + 102 := by
    have all := filled.few
    have some_ := length_visible MAX_OBJECT_KEYS fields
    rw [List.length_map] at all
    simp only [MAX_OBJECT_KEYS] at all some_
    omega
  have bounded : Bounded g (limit + 102) (nestingBound limit (depth + 1) + 1) filling.output :=
    .record few (fun field mem => (each field mem).1) filled.prototype fun field mem => (each field mem).2
  refine bounded.mono ?_
  rw [nestingBound_succ short.1]
  omega

/-- **Every turn keeps outputs bounded** where its call is short. -/
theorem preserved_bounded (engine : Engine) (g : Graph) (limit : Nat) :
    Preserved engine g ⟨true, true⟩ (ShortCall g limit)
      fun depth out => Bounded g (limit + 102) (nestingBound limit depth) out where
  rests within short isTurn := rests_bounded within short isTurn
  follows _ short isTurn bounded := by
    obtain ⟨notRedacted, r, _, _, _, _, rfl, isNode, _, rfl⟩ := turn_follows isTurn
    have isShort : ShortNode g limit _ _ r (g.node r) := short.2 notRedacted
    rw [isNode] at isShort
    refine (caused_bounded (by omega) isShort bounded).mono ?_
    rw [nestingBound_succ short.1]
    omega
  enters {depth _ _ _ _ _ _ _} within short isTurn length bounded := by
    obtain ⟨_, rfl, _, _, _, _, container⟩ := turn_enters isTurn
    obtain ⟨inner, isInner⟩ : ∃ inner, nestingBound limit (depth + 1) = inner + 1 :=
      ⟨nestingBound limit (depth + 1) - 1, by have := le_nestingBound limit (depth + 1); omega⟩
    have finished := (container_bounded within (by omega) container).2.2 _ length
      (isInner ▸ bounded)
    rw [nestingBound_succ short.1, isInner]
    exact finished
  opens _ short isTurn filled := opens_bounded short isTurn filled
  caught _ error := unserializable_bounded engine error

end

/-! ## Bounded outputs come from what is short -/

section
variable {engine : Engine} {g : Graph} {keys nesting : Nat}

theorem Bounded.field {prototype : Option Output} {fields : List (JsString × Output)}
    (bounded : Bounded g keys nesting (.record prototype fields)) {field : JsString × Output}
    (mem : field ∈ fields) :
    field.1.length ≤ MAX_STRING_LENGTH ∧
      ∃ inner, nesting = inner + 1 ∧ Bounded g keys inner field.2 := by
  cases bounded with
  | @record inner _ _ few short above each => exact ⟨short field mem, inner, rfl, each field mem⟩

theorem Bounded.text {prototype : Option Output} {fields : List (JsString × Output)}
    (bounded : Bounded g keys nesting (.record prototype fields)) {key s : JsString}
    (mem : (key, .text s) ∈ fields) : s.length ≤ MAX_STRING_LENGTH := by
  obtain ⟨_, inner, _, isText⟩ := bounded.field mem
  exact bounded_text_iff.mp isText

/-- What stands so many levels inside is nested less by as many. -/
theorem Bounded.inside {n : Nat} {out whole : Output} (bounded : Bounded g keys nesting whole)
    (inside : out.Inside n whole) : ∃ inner, nesting = inner + n ∧ Bounded g keys inner out := by
  induction inside generalizing nesting with
  | here => exact ⟨nesting, rfl, bounded⟩
  | item mem _ ih =>
    cases bounded with
    | array _ each =>
      obtain ⟨inner, rfl, isBounded⟩ := ih (each _ mem)
      exact ⟨inner, by omega, isBounded⟩
  | field mem _ ih =>
    cases bounded with
    | record _ _ _ each =>
      obtain ⟨inner, rfl, isBounded⟩ := ih (each _ mem)
      exact ⟨inner, by omega, isBounded⟩
  | prototype _ ih =>
    cases bounded with
    | record _ _ above _ =>
      obtain ⟨inner, rfl, isBounded⟩ := ih (above _ rfl)
      exact ⟨inner, by omega, isBounded⟩

/-! ### The keys of a record -/

theorem Assigned.key_mem {filling filling' : Filling} {key key' : JsString} {out : Output}
    (assigned : Assigned engine filling key out filling') (mem : key' ∈ filling.fields.map Prod.fst) :
    key' ∈ filling'.fields.map Prod.fst := by
  obtain ⟨field, memField, rfl⟩ := List.mem_map.mp mem
  by_cases isKey : field.1 = key
  · cases assigned with
    | field _ _ =>
      rw [isKey]
      exact List.mem_map_of_mem mem_setField_self
    | _ => exact mem
  · exact List.mem_map_of_mem (assigned.mem_of_ne memField isKey)

/-- A record without binary data among its prototypes takes every key. -/
theorem Assigned.key_mem_self {filling filling' : Filling} {key : JsString} {out : Output}
    (assigned : Assigned engine filling key out filling') (plain : filling.output.chain = none)
    (notProto : key ≠ ascii "__proto__") : key ∈ filling'.fields.map Prod.fst := by
  cases assigned with
  | prototype _ => exact absurd rfl notProto
  | noPrototype _ => exact absurd rfl notProto
  | ignored _ ignored =>
    rw [Outline.ignores, ← chain_output, plain] at ignored
    cases ignored
  | field _ _ => exact List.mem_map_of_mem mem_setField_self

theorem Assigned.chain_eq_none {filling filling' : Filling} {key : JsString} {out : Output}
    (assigned : Assigned engine filling key out filling') (plain : filling.output.chain = none)
    (chain : out.chain = none) : filling'.output.chain = none := by
  rw [chain_output, Outline.chain, Option.map_eq_none_iff] at plain ⊢
  cases assigned with
  | prototype _ => exact chain
  | _ => exact plain

/-- Every key that is gone through is written. -/
theorem key_mem_of_filled {depth : Nat} {fields : List (JsString × Value)} {filling filling' : Filling}
    {seen seen' : List Nat} (within : ∀ field ∈ fields, field.2.Within g.size)
    (plain : filling.output.chain = none)
    (ran : (fields.foldlM (sanitizeProperty engine (rendering engine g ⟨true, true⟩) depth)
      filling).walk seen = (.ok filling', seen')) :
    ∀ field ∈ fields, field.1 ≠ ascii "__proto__" → field.1 ∈ filling'.fields.map Prod.fst := by
  induction fields generalizing filling seen with
  | nil => exact nofun
  | cons property fields ih =>
    obtain ⟨insideFirst, inside⟩ := List.forall_mem_cons.mp within
    rw [List.foldlM_cons] at ran
    obtain ⟨filling₁, seen₁, ranFirst, ranRest⟩ := walk_bind_eq_ok.mp ran
    obtain ⟨result, ranValue, isAssigned⟩ := sanitizeProperty_eq_ok ranFirst
    have assigned := assign_spec isAssigned
    have chain : (assignedOutput engine result).chain = none := by
      cases result with
      | error error => rfl
      | ok out => exact chain_rendering rfl insideFirst ranValue
    intro field mem notProto
    rcases List.mem_cons.mp mem with rfl | mem
    · have written := assigned.key_mem_self plain notProto
      refine foldlM_invariant (P := fun filling => field.1 ∈ filling.fields.map Prod.fst) ?_ written
        ranRest
      intro property _ filling seen filling' seen' mem ran
      obtain ⟨_, _, isAssigned⟩ := sanitizeProperty_eq_ok ran
      exact (assign_spec isAssigned).key_mem mem
    · exact ih inside (assigned.chain_eq_none plain chain) ranRest field mem notProto

theorem key_mem_counted {filling filling' : Filling} {key : JsString} {count : Nat}
    (isCounted : countTruncated engine ⟨true, true⟩ filling count = .ok filling')
    (mem : key ∈ filling.fields.map Prod.fst) : key ∈ filling'.fields.map Prod.fst := by
  unfold countTruncated at isCounted
  split at isCounted
  · exact (assign_spec isCounted).key_mem mem
  · cases isCounted
    exact mem

/-! ### Calls that are shown -/

variable {depth : Nat} {seen seen' : List Nat} {v : Value} {key : Option JsString} {out : Output}

/-- A record is described at the depth limit, and opened above it. -/
theorem shortRecord_of_bounded {r limit : Nat} {inherited : Option JsString}
    {fields : List (JsString × Value)} (inside : r < g.size) (isNode : g.node r = .record inherited fields)
    (notBuffer : asSerializedBuffer g fields = none) (fresh : r ∉ seen)
    (notRedacted : redacted ⟨true, true⟩ key = false) (leKeys : keys ≤ limit) (leNesting : nesting ≤ limit)
    (ran : (rendering engine g ⟨true, true⟩ depth (.ref r) key).walk seen = (.ok out, seen'))
    (bounded : Bounded g keys nesting out) : ShortRecord g limit depth inherited fields := by
  have within : (Value.ref r).Within g.size := inside
  intro type isType
  rw [rendering_step within, turn_ref notRedacted, isNode, nodeTurn, notBuffer] at ran
  simp only [recordTurn, if_neg fresh, isType] at ran
  split
  · next deep =>
    intro text isText
    have isDeep : tooDeep ⟨true, true⟩ depth = true := by simpa [tooDeep] using deep
    rw [isDeep, if_pos rfl, isText] at ran
    cases ran
    have frame : (ascii "[MaxDepth:").length = 10 ∧ (ascii "]").length = 1 := by decide
    rw [bounded_framed_iff] at bounded
    simp only [MAX_STRING_LENGTH] at bounded
    omega
  · next shallow =>
    have isShallow : tooDeep ⟨true, true⟩ depth = false := by simpa [tooDeep] using shallow
    rw [isShallow, if_neg Bool.false_ne_true] at ran
    obtain ⟨seen₁, ran⟩ := walk_addDelete_eq_ok ran
    obtain ⟨filling, seen₂, ranAll, ran⟩ := walk_bind_eq_ok.mp ran
    obtain ⟨filling', seen₃, ranCount, ran⟩ := walk_bind_eq_ok.mp ran
    rw [walk_ofExcept] at ranCount
    have isCounted := (Prod.mk.inj ranCount).1
    cases ran
    have all : ∀ field ∈ fields.take MAX_OBJECT_KEYS, field.2.Within g.size :=
      fun field mem => g.within_of_record inside isNode field (List.mem_of_mem_take mem)
    refine ⟨fun field mem => ?_, fun unwritten => ?_⟩
    · by_cases isProto : field.1 = ascii "__proto__"
      · rw [isProto]
        decide
      · have written := key_mem_counted isCounted (key_mem_of_filled all rfl ranAll field mem isProto)
        obtain ⟨shown, memShown, isKey⟩ := List.mem_map.mp written
        rw [← isKey]
        exact (bounded.field memShown).1
    · by_cases plain : type = .string (ascii "Object")
      · rw [plain]
        exact boundedValue_string.mpr (by decide)
      · have typed : (ascii "type", Output.value type) ∈ (typedFilling type).fields := by
          unfold typedFilling
          rw [if_neg plain]
          exact List.mem_singleton_self _
        obtain ⟨inner, rfl, isBounded⟩ := bounded.inside (type_inside typed unwritten ranAll isCounted)
        cases isBounded with
        | value here => exact here.mono leKeys (by omega)

/-- **What returns a bounded output is short.** -/
theorem shortValue_of_bounded {limit : Nat} (within : v.Within g.size)
    (notRedacted : redacted ⟨true, true⟩ key = false) (leKeys : keys ≤ limit) (leNesting : nesting ≤ limit)
    (ran : (rendering engine g ⟨true, true⟩ depth v key).walk seen = (.ok out, seen'))
    (bounded : Bounded g keys nesting out) : ShortValue g limit depth seen v := by
  have step : (rendering engine g ⟨true, true⟩ depth v key).walk seen =
      (perform engine addDelete ⟨true, true⟩ (rendering engine g ⟨true, true⟩) depth
        (turn g ⟨true, true⟩ depth seen v key)).walk seen := rendering_step within
  rcases v.primitive_or_ref with isPrimitive | ⟨r, rfl⟩
  · obtain ⟨out', isOut⟩ := exists_sanitizePrimitive ⟨true, true⟩ isPrimitive
    have rested : turn g ⟨true, true⟩ depth seen v key = .rests out' := by
      unfold turn
      rw [notRedacted, if_neg Bool.false_ne_true, isOut]
    rw [step, rested] at ran
    cases ran
    have short := (sanitizePrimitive_bounded_iff isOut).mp bounded
    cases v with
    | ref r => exact absurd rfl (isPrimitive r)
    | _ => exact short
  · show ShortNode g limit depth seen r (g.node r)
    rw [turn_ref notRedacted] at step
    cases isNode : g.node r with
    | error constructorName name message stack cause =>
      have type : (ascii "type", .text constructorName) ∈
          errorOutput ⟨true, true⟩ constructorName name message stack := .head _
      have named : (ascii "name", .text name) ∈
          errorOutput ⟨true, true⟩ constructorName name message stack := .tail _ (.head _)
      rw [step, isNode, nodeTurn] at ran
      split at ran
      · cases ran
        exact ⟨bounded.text type, bounded.text named⟩
      · obtain ⟨sanitized, seen₁, _, ran⟩ := walk_bind_eq_ok.mp ran
        cases ran
        exact ⟨bounded.text (List.mem_append_left _ type), bounded.text (List.mem_append_left _ named)⟩
    | binary kind bytes text =>
      cases kind with
      | view constructorName items =>
        rw [step, isNode, nodeTurn] at ran
        cases ran
        exact bounded.text (List.mem_cons_self ..)
      | _ => trivial
    | record inherited fields =>
      intro notBuffer fresh
      exact shortRecord_of_bounded within isNode notBuffer fresh notRedacted leKeys leNesting ran bounded
    | _ => trivial

end

/-- **The outputs are bounded** exactly if whatever is shown is short, by a constant. -/
theorem outputsBounded_iff (engine : Engine) (inputs : Input → Prop) :
    OutputsBounded engine inputs ↔ Limited engine inputs := by
  constructor
  · rintro ⟨keys, nesting, bounded⟩
    refine ⟨keys + nesting, fun input isInput state shown => ?_⟩
    obtain ⟨stack, whole, isRendering⟩ :=
      ((bounded input isInput).and (eventually_sanitizeLogValue engine input {})).exists
    rcases state with ⟨task, seen⟩
    cases task with
    | call depth v key =>
      have root : Shown engine input ⟨true, true⟩ input.state := ⟨shown.1, .refl⟩
      obtain ⟨all, seen'', ranAll⟩ := root.returns
      obtain ⟨out, seen', ran⟩ := shown.returns
      obtain ⟨n, le, inside⟩ := shown.inside ran (congrArg Prod.fst ranAll)
      have wholeBounded := whole all (isRendering.trans (congrArg Prod.fst ranAll))
      obtain ⟨inner, isNesting, isBounded⟩ := wholeBounded.inside inside
      refine ⟨by omega, fun notRedacted => ?_⟩
      exact shortValue_of_bounded shown.within notRedacted (by omega) (by omega) ran isBounded
    | _ => trivial
  · rintro ⟨limit, short⟩
    refine ⟨limit + 102, nestingBound limit 0, fun input isInput => ?_⟩
    filter_upwards [eventually_sanitizeLogValue engine input {}] with stack isRendering out returned
    rw [isRendering] at returned
    exact (preserved_bounded engine input.graph limit).output (short input isInput) returned

/-- An object whose only key has 300 characters. -/
def longKeyInput : Input where
  graph :=
    { node _ := .record (some (ascii "Object")) [(List.replicate 300 97, .null)]
      size := 1
      closed := by decide
      counted := by decide
      distinct := by decide
      uncalled := by decide }
  value := .ref 0
  within := by decide

set_option maxRecDepth 20000 in
/-- The key is kept, so there are no constants for all inputs. -/
theorem long_key_kept :
    (∀ stack, sanitizeLogValue .v8 longKeyInput.graph (stack + 2) (.ref 0) =
      .ok (.plain [(List.replicate 300 97, .value .null)])) ∧
    ¬OutputsBounded .v8 fun _ => True := by
  have rendered : ∀ stack, sanitizeLogValue .v8 longKeyInput.graph (stack + 2) (.ref 0) =
      .ok (.plain [(List.replicate 300 97, .value .null)]) := fun stack => rfl
  refine ⟨rendered, ?_⟩
  rintro ⟨keys, nesting, bounded⟩
  obtain ⟨stack, whole⟩ :=
    ((tendsto_add_atTop_nat 2).eventually (bounded longKeyInput trivial)).exists
  have key := (Bounded.field (whole _ (rendered stack)) (.head _)).1
  rw [List.length_replicate] at key
  exact absurd key (by decide)

end QuietStorage.Logger
