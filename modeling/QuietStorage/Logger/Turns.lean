import QuietStorage.Logger.Sanitizer

/-!
# Logger.Turns — what one call of the sanitizer does

A call of `sanitizeValue` takes one of a few turns (`turn`): it returns at once, throws, goes on with the
cause of an Error, or goes through the parts of a container. Which one it is depends on the value, its
key, the depth and the seen set, and what is done then is the same for arrays, Sets and Maps (`perform`).
-/

set_option autoImplicit false

namespace QuietStorage.Logger

open Lib Lib.Js Lib.Traversal

/-! ## One call -/

/-- A part of a container. In a Map the value of an entry stands under the text of its key, if there is
one. -/
inductive Part where
  | value (v : Value) (key : Option JsString)
  | unprintable (error : Exception)

/-- What a call does with its value. -/
inductive Turn where
  | rests (out : Output)
  | fails (error : Exception)
  /-- It goes on with the cause of an Error. -/
  | follows (output : List (JsString × Output)) (cause : Value)
  /-- It goes through an array, a Set or a Map, and finishes what comes of the parts. -/
  | enters (r : Nat) (parts : List Part) (finish : List Output → Output)
  /-- It goes through the properties of a record. -/
  | opens (r : Nat) (type : Value) (fields : List (JsString × Value))

section
variable (g : Graph) (options : RequiredOptions)

def itemPart (v : Value) : Part := .value v none

def entryParts (entry : Value × Value) : List Part :=
  [.value entry.1 none,
    match g.stringOf entry.1 with
    | .ok name => .value entry.2 (some name)
    | .error error => .unprintable error]

/-- The entries of a Map, from what comes of their keys and values. -/
def pairs : List Output → List Output
  | key :: value :: rest => .array [key, value] :: pairs rest
  | _ => []

def containerTurn (depth : Nat) (seen : List Nat) (r : Nat) (marker limit : Output) (parts : List Part)
    (finish : List Output → Output) : Turn :=
  if r ∈ seen then .rests marker
  else if tooDeep options depth then .rests limit
  else .enters r parts finish

def recordTurn (depth : Nat) (seen : List Nat) (r : Nat) (inherited : Option JsString)
    (fields : List (JsString × Value)) : Turn :=
  if r ∈ seen then .rests circular
  else
    match g.constructorName inherited fields with
    | .error error => .fails error
    | .ok type =>
      if tooDeep options depth then
        match g.toText type with
        | .error error => .fails error
        | .ok text => .rests (.text (ascii "[MaxDepth:" ++ text ++ ascii "]"))
      else .opens r type fields

def nodeTurn (depth : Nat) (seen : List Nat) (r : Nat) : Node → Turn
  | .binary kind bytes _ => .rests (describeBinary options r kind bytes)
  | .error constructorName name message stack cause =>
    let output := errorOutput options constructorName name message stack
    if cause.isNullish then .rests (.plain output) else .follows output cause
  | .date (some iso) _ => .rests (.text iso.1)
  | .date none _ => .fails .invalidTime
  | .map entries =>
    containerTurn options depth seen r circular
      (.text (ascii "[MaxDepth:Map size=" ++ decimal entries.length ++ ascii "]"))
      ((visible options MAX_ARRAY_ITEMS entries).flatMap (entryParts g)) fun outs =>
        .plain
          [(ascii "type", .text (ascii "Map")), (ascii "size", .count entries.length),
            (ascii "entries", marked options (pairs outs) entries.length)]
  | .set values =>
    containerTurn options depth seen r circular
      (.text (ascii "[MaxDepth:Set size=" ++ decimal values.length ++ ascii "]"))
      ((visible options MAX_ARRAY_ITEMS values).map itemPart) fun outs =>
        .plain
          [(ascii "type", .text (ascii "Set")), (ascii "size", .count values.length),
            (ascii "values", marked options outs values.length)]
  | .array items =>
    containerTurn options depth seen r (.array [circular])
      (.array [.text (ascii "[MaxDepth:Array length=" ++ decimal items.length ++ ascii "]")])
      ((visible options MAX_ARRAY_ITEMS items).map itemPart) fun outs =>
        marked options outs items.length
  | .record inherited fields =>
    match asSerializedBuffer g fields with
    | some (data, items) => .rests (describeSerializedBuffer options data items)
    | none => recordTurn g options depth seen r inherited fields

/-- The turn that a call takes. -/
def turn (depth : Nat) (seen : List Nat) (v : Value) (key : Option JsString) : Turn :=
  if redacted options key then .rests (.text REDACTED_VALUE)
  else
    match sanitizePrimitive options v with
    | some out => .rests out
    | none =>
      match v with
      | .ref r => nodeTurn g options depth seen r (g.node r)
      | _ => .rests (.value v)

end

/-! ## Which turn it is -/

/-- Every value but a reference is a primitive. -/
theorem exists_sanitizePrimitive (options : RequiredOptions) {value : Value}
    (isPrimitive : ∀ r, value ≠ .ref r) : ∃ out, sanitizePrimitive options value = some out := by
  cases value with
  | ref r => exact absurd rfl (isPrimitive r)
  | _ => exact ⟨_, rfl⟩

/-- A cause is not redacted. -/
theorem redacted_cause (options : RequiredOptions) :
    redacted options (some (ascii "cause")) = false := by
  have plain : isSensitiveKey (ascii "cause") = false := by decide
  rw [redacted, Option.any_some, plain, Bool.and_false]

theorem redacted_none (options : RequiredOptions) : redacted options none = false := Bool.and_false _

theorem mem_of_mem_visible {options : RequiredOptions} {α : Type} {limit : Nat} {items : List α} {a : α}
    (mem : a ∈ visible options limit items) : a ∈ items := by
  unfold visible at mem
  split at mem
  · exact List.mem_of_mem_take mem
  · exact mem

section
variable (g : Graph) (options : RequiredOptions)

/-- An array, a Set or a Map: its marker, what it is at the depth limit, its parts, and what is made of
them. -/
inductive Container : Node → Output → Output → List Part → (List Output → Output) → Prop
  | array (items : List Value) :
    Container (.array items) (.array [circular])
      (.array [.text (ascii "[MaxDepth:Array length=" ++ decimal items.length ++ ascii "]")])
      ((visible options MAX_ARRAY_ITEMS items).map itemPart) fun outs =>
        marked options outs items.length
  | set (values : List Value) :
    Container (.set values) circular
      (.text (ascii "[MaxDepth:Set size=" ++ decimal values.length ++ ascii "]"))
      ((visible options MAX_ARRAY_ITEMS values).map itemPart) fun outs =>
        .plain
          [(ascii "type", .text (ascii "Set")), (ascii "size", .count values.length),
            (ascii "values", marked options outs values.length)]
  | map (entries : List (Value × Value)) :
    Container (.map entries) circular
      (.text (ascii "[MaxDepth:Map size=" ++ decimal entries.length ++ ascii "]"))
      ((visible options MAX_ARRAY_ITEMS entries).flatMap (entryParts g)) fun outs =>
        .plain
          [(ascii "type", .text (ascii "Map")), (ascii "size", .count entries.length),
            (ascii "entries", marked options (pairs outs) entries.length)]

/-- **The turns for an object.** -/
inductive NodeTurn (depth : Nat) (seen : List Nat) (r : Nat) : Node → Turn → Prop
  | binary (kind : BinaryKind) (bytes : List UInt8) (text : JsString) :
    NodeTurn depth seen r (.binary kind bytes text) (.rests (describeBinary options r kind bytes))
  | error {constructorName name message : JsString} {stack : Option JsString} {cause : Value}
    (absent : cause.isNullish = true) :
    NodeTurn depth seen r (.error constructorName name message stack cause)
      (.rests (.plain (errorOutput options constructorName name message stack)))
  | caused {constructorName name message : JsString} {stack : Option JsString} {cause : Value}
    (present : cause.isNullish = false) :
    NodeTurn depth seen r (.error constructorName name message stack cause)
      (.follows (errorOutput options constructorName name message stack) cause)
  | date (iso : IsoText) (text : JsString) :
    NodeTurn depth seen r (.date (some iso) text) (.rests (.text iso.1))
  | noDate (text : JsString) : NodeTurn depth seen r (.date none text) (.fails .invalidTime)
  | seen {node : Node} {marker limit : Output} {parts : List Part} {finish : List Output → Output}
    (container : Container g options node marker limit parts finish) (isSeen : r ∈ seen) :
    NodeTurn depth seen r node (.rests marker)
  | deep {node : Node} {marker limit : Output} {parts : List Part} {finish : List Output → Output}
    (container : Container g options node marker limit parts finish) (fresh : r ∉ seen)
    (deep : tooDeep options depth = true) : NodeTurn depth seen r node (.rests limit)
  | enters {node : Node} {marker limit : Output} {parts : List Part} {finish : List Output → Output}
    (container : Container g options node marker limit parts finish) (fresh : r ∉ seen)
    (shallow : tooDeep options depth = false) :
    NodeTurn depth seen r node (.enters r parts finish)
  | buffer {inherited : Option JsString} {fields : List (JsString × Value)} {data : Value}
    {items : List Value} (isBuffer : asSerializedBuffer g fields = some (data, items)) :
    NodeTurn depth seen r (.record inherited fields)
      (.rests (describeSerializedBuffer options data items))
  | seenRecord {inherited : Option JsString} {fields : List (JsString × Value)}
    (notBuffer : asSerializedBuffer g fields = none) (isSeen : r ∈ seen) :
    NodeTurn depth seen r (.record inherited fields) (.rests circular)
  | unnamed {inherited : Option JsString} {fields : List (JsString × Value)} {error : Exception}
    (notBuffer : asSerializedBuffer g fields = none) (fresh : r ∉ seen)
    (isError : g.constructorName inherited fields = .error error) :
    NodeTurn depth seen r (.record inherited fields) (.fails error)
  | deepRecord {inherited : Option JsString} {fields : List (JsString × Value)} {type : Value}
    {text : JsString} (notBuffer : asSerializedBuffer g fields = none) (fresh : r ∉ seen)
    (isType : g.constructorName inherited fields = .ok type) (deep : tooDeep options depth = true)
    (isText : g.toText type = .ok text) :
    NodeTurn depth seen r (.record inherited fields)
      (.rests (.text (ascii "[MaxDepth:" ++ text ++ ascii "]")))
  | noText {inherited : Option JsString} {fields : List (JsString × Value)} {type : Value}
    {error : Exception} (notBuffer : asSerializedBuffer g fields = none) (fresh : r ∉ seen)
    (isType : g.constructorName inherited fields = .ok type) (deep : tooDeep options depth = true)
    (isError : g.toText type = .error error) :
    NodeTurn depth seen r (.record inherited fields) (.fails error)
  | opens {inherited : Option JsString} {fields : List (JsString × Value)} {type : Value}
    (notBuffer : asSerializedBuffer g fields = none) (fresh : r ∉ seen)
    (isType : g.constructorName inherited fields = .ok type)
    (shallow : tooDeep options depth = false) :
    NodeTurn depth seen r (.record inherited fields) (.opens r type fields)

end

section
variable {g : Graph} {options : RequiredOptions} {depth r : Nat} {seen : List Nat} {v : Value}
  {key : Option JsString}

theorem turn_redacted (isRedacted : redacted options key = true) :
    turn g options depth seen v key = .rests (.text REDACTED_VALUE) := if_pos isRedacted

theorem turn_ref (notRedacted : redacted options key = false) :
    turn g options depth seen (.ref r) key = nodeTurn g options depth seen r (g.node r) := by
  unfold turn
  rw [notRedacted, if_neg Bool.false_ne_true]
  rfl

theorem containerTurn_spec {node : Node} {marker limit : Output} {parts : List Part}
    {finish : List Output → Output} (container : Container g options node marker limit parts finish) :
    NodeTurn g options depth seen r node
      (containerTurn options depth seen r marker limit parts finish) := by
  unfold containerTurn
  split
  · next isSeen => exact .seen container isSeen
  · next fresh =>
    split
    · next deep => exact .deep container fresh deep
    · next shallow => exact .enters container fresh (Bool.eq_false_iff.mpr shallow)

theorem recordTurn_spec {inherited : Option JsString} {fields : List (JsString × Value)}
    (notBuffer : asSerializedBuffer g fields = none) :
    NodeTurn g options depth seen r (.record inherited fields)
      (recordTurn g options depth seen r inherited fields) := by
  unfold recordTurn
  split
  · next isSeen => exact .seenRecord notBuffer isSeen
  · next fresh =>
    cases isType : g.constructorName inherited fields with
    | error error => exact .unnamed notBuffer fresh isType
    | ok type =>
      dsimp only
      split
      · next deep =>
        cases isText : g.toText type with
        | error error => exact .noText notBuffer fresh isType deep isText
        | ok text => exact .deepRecord notBuffer fresh isType deep isText
      · next shallow => exact .opens notBuffer fresh isType (Bool.eq_false_iff.mpr shallow)

theorem nodeTurn_spec (node : Node) :
    NodeTurn g options depth seen r node (nodeTurn g options depth seen r node) := by
  cases node with
  | binary kind bytes text => exact .binary kind bytes text
  | error constructorName name message stack cause =>
    simp only [nodeTurn]
    split
    · next absent => exact .error absent
    · next present => exact .caused (Bool.eq_false_iff.mpr present)
  | date iso text =>
    cases iso with
    | none => exact .noDate text
    | some iso => exact .date iso text
  | map entries => exact containerTurn_spec (.map entries)
  | set values => exact containerTurn_spec (.set values)
  | array items => exact containerTurn_spec (.array items)
  | record inherited fields =>
    simp only [nodeTurn]
    cases isBuffer : asSerializedBuffer g fields with
    | some buffer => exact .buffer isBuffer
    | none => exact recordTurn_spec isBuffer

/-- **The turns of a call.** -/
inductive CallTurn (g : Graph) (options : RequiredOptions) (depth : Nat) (seen : List Nat) :
    Value → Option JsString → Turn → Prop
  | redacted {v : Value} {key : Option JsString} (isRedacted : redacted options key = true) :
    CallTurn g options depth seen v key (.rests (.text REDACTED_VALUE))
  | primitive {v : Value} {key : Option JsString} {out : Output}
    (notRedacted : Logger.redacted options key = false)
    (isPrimitive : sanitizePrimitive options v = some out) :
    CallTurn g options depth seen v key (.rests out)
  | object {r : Nat} {key : Option JsString} {taken : Turn}
    (notRedacted : Logger.redacted options key = false)
    (isTurn : NodeTurn g options depth seen r (g.node r) taken) :
    CallTurn g options depth seen (.ref r) key taken

theorem turn_spec (v : Value) (key : Option JsString) :
    CallTurn g options depth seen v key (turn g options depth seen v key) := by
  unfold turn
  cases isRedacted : redacted options key with
  | true => exact .redacted isRedacted
  | false =>
    rw [if_neg Bool.false_ne_true]
    rcases v.primitive_or_ref with isPrimitive | ⟨r, rfl⟩
    · obtain ⟨out, isOut⟩ := exists_sanitizePrimitive options isPrimitive
      rw [isOut]
      exact .primitive isRedacted isOut
    · exact .object isRedacted (nodeTurn_spec (g.node r))

/-- What is entered is a container that is not seen, above the depth limit. -/
theorem turn_enters {parts : List Part} {finish : List Output → Output}
    (isTurn : turn g options depth seen v key = .enters r parts finish) :
    redacted options key = false ∧ v = .ref r ∧ r ∉ seen ∧ tooDeep options depth = false ∧
      ∃ marker limit, Container g options (g.node r) marker limit parts finish := by
  have spec : CallTurn g options depth seen v key (turn g options depth seen v key) := turn_spec v key
  rw [isTurn] at spec
  cases spec with
  | @object r' _ _ notRedacted isNode =>
    generalize nodeEq : g.node r' = node at isNode
    cases isNode with
    | enters container fresh shallow =>
      exact ⟨notRedacted, rfl, fresh, shallow, _, _, nodeEq ▸ container⟩

/-- What is opened is a record that is not seen, above the depth limit. -/
theorem turn_opens {type : Value} {fields : List (JsString × Value)}
    (isTurn : turn g options depth seen v key = .opens r type fields) :
    redacted options key = false ∧ v = .ref r ∧ r ∉ seen ∧ tooDeep options depth = false ∧
      ∃ inherited, g.node r = .record inherited fields ∧ asSerializedBuffer g fields = none ∧
        g.constructorName inherited fields = .ok type := by
  have spec : CallTurn g options depth seen v key (turn g options depth seen v key) := turn_spec v key
  rw [isTurn] at spec
  cases spec with
  | @object r' _ _ notRedacted isNode =>
    generalize nodeEq : g.node r' = node at isNode
    cases isNode with
    | opens notBuffer fresh isType shallow =>
      exact ⟨notRedacted, rfl, fresh, shallow, _, nodeEq, notBuffer, isType⟩

/-- What is followed is the cause of an Error. -/
theorem turn_follows {output : List (JsString × Output)} {cause : Value}
    (isTurn : turn g options depth seen v key = .follows output cause) :
    redacted options key = false ∧ ∃ r constructorName name message stack, v = .ref r ∧
      g.node r = .error constructorName name message stack cause ∧ cause.isNullish = false ∧
        output = errorOutput options constructorName name message stack := by
  have spec : CallTurn g options depth seen v key (turn g options depth seen v key) := turn_spec v key
  rw [isTurn] at spec
  cases spec with
  | @object r' _ _ notRedacted isNode =>
    generalize nodeEq : g.node r' = node at isNode
    cases isNode with
    | caused present => exact ⟨notRedacted, r', _, _, _, _, rfl, nodeEq, present, rfl⟩

end

section
variable (engine : Engine) (g : Graph) (visit : Nat → Sanitizing Output → Sanitizing Output)
  (options : RequiredOptions) (recur : Nat → Value → Option JsString → Sanitizing Output) (depth : Nat)

def sanitizePart : Part → Sanitizing Output
  | .value v key => recur (depth + 1) v key
  | .unprintable error => throw error

/-- What is done in a turn. -/
def perform : Turn → Sanitizing Output
  | .rests out => pure out
  | .fails error => throw error
  | .follows output cause => do
    let sanitized ← recur (depth + 1) cause (some (ascii "cause"))
    pure (.plain (output ++ [(ascii "cause", sanitized)]))
  | .enters r parts finish =>
    visit r do
      let outs ← parts.mapM (sanitizePart recur depth)
      pure (finish outs)
  | .opens r type fields => visit r (sanitizeProperties engine options recur depth type fields)

theorem mapM_items (values : List Value) :
    values.mapM (sanitizeItem recur depth) =
      (values.map itemPart).mapM (sanitizePart recur depth) :=
  mapM_congr (List.forall₂_map_right_iff.mpr (List.forall₂_same.mpr fun _ _ => rfl))

/-- The entries of a Map, part by part. -/
theorem mapM_entries (entries : List (Value × Value)) :
    entries.mapM (sanitizeEntry g recur depth) =
      (entries.flatMap (entryParts g)).mapM (sanitizePart recur depth) >>= fun outs =>
        pure (pairs outs) := by
  induction entries with
  | nil => rfl
  | cons entry entries ih =>
    rw [List.mapM_cons, ih, List.flatMap_cons, List.mapM_append, sanitizeEntry, entryParts]
    cases g.stringOf entry.1 with
    | error error => simp [sanitizePart, List.mapM_cons]
    | ok name => simp [sanitizePart, List.mapM_cons, pairs]

theorem walk_sanitizeContainer (r : Nat) (marker limit : Output) (parts : List Part)
    (finish : List Output → Output) (seen : List Nat) :
    (sanitizeContainer visit options depth r marker limit do
        let outs ← parts.mapM (sanitizePart recur depth)
        pure (finish outs)).walk seen =
      (perform engine visit options recur depth
        (containerTurn options depth seen r marker limit parts finish)).walk seen := by
  unfold sanitizeContainer containerTurn
  rw [walk_get_bind]
  split
  · rfl
  · split
    · rfl
    · rfl

theorem walk_sanitizeObject (r : Nat) (inherited : Option JsString) (fields : List (JsString × Value))
    (seen : List Nat) :
    (sanitizeObject engine g visit options recur depth r inherited fields).walk seen =
      (perform engine visit options recur depth
        (recordTurn g options depth seen r inherited fields)).walk seen := by
  unfold sanitizeObject recordTurn
  rw [walk_get_bind]
  split
  · rfl
  · cases g.constructorName inherited fields with
    | error error => rfl
    | ok type =>
      dsimp only
      rw [ofExcept_ok_bind]
      split
      · cases g.toText type with
        | error error => rfl
        | ok text => rfl
      · rfl

theorem walk_sanitizeNode (r : Nat) (node : Node) (seen : List Nat) :
    (sanitizeNode engine g visit options recur depth r node).walk seen =
      (perform engine visit options recur depth (nodeTurn g options depth seen r node)).walk seen := by
  cases node with
  | binary kind bytes text => rfl
  | error constructorName name message stack cause =>
    simp only [sanitizeNode, sanitizeError, nodeTurn]
    split
    · rfl
    · rfl
  | date iso text =>
    cases iso with
    | none => rfl
    | some iso => rfl
  | map entries =>
    show (sanitizeMap g visit options recur depth r entries).walk seen = _
    simp only [sanitizeMap, mapM_entries, bind_assoc, pure_bind]
    exact walk_sanitizeContainer engine visit options recur depth r _ _ _ _ seen
  | set values =>
    show (sanitizeSet visit options recur depth r values).walk seen = _
    rw [sanitizeSet, mapM_items]
    exact walk_sanitizeContainer engine visit options recur depth r _ _ _ _ seen
  | array items =>
    show (sanitizeArray visit options recur depth r items).walk seen = _
    rw [sanitizeArray, mapM_items]
    exact walk_sanitizeContainer engine visit options recur depth r _ _ _ _ seen
  | record inherited fields =>
    simp only [sanitizeNode, nodeTurn]
    cases asSerializedBuffer g fields with
    | some buffer => rfl
    | none => exact walk_sanitizeObject engine g visit options recur depth r inherited fields seen

/-- **A call performs its turn.** -/
theorem walk_sanitizeStep (v : Value) (key : Option JsString) (seen : List Nat) :
    (sanitizeStep engine g visit options recur depth v key).walk seen =
      (perform engine visit options recur depth (turn g options depth seen v key)).walk seen := by
  unfold sanitizeStep turn
  split
  · rfl
  · cases sanitizePrimitive options v with
    | some out => rfl
    | none =>
      cases v with
      | ref r => exact walk_sanitizeNode engine g visit options recur depth r (g.node r) seen
      | _ => rfl

end

end QuietStorage.Logger
