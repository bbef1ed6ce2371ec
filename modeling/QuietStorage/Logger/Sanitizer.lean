import QuietStorage.Lib.ObjectGraph

/-!
# Logger.Sanitizer — what is written of a value to the log

`sanitizeLogValue` makes of any value one that can be printed: what stands under a sensitive key is
redacted, strings are cut, of arrays and records only so much is kept, and what is nested too deeply, or
in itself, is replaced by a marker.

**The seen set** is the list that a `Traversal` keeps. A container adds itself, and deletes itself when
its parts are done; only `sanitizeObject` catches what its parts throw. How an object is entered is a
parameter (`visit`), which is `addDelete` in the program.

**The stack.** `stack` is the number of calls of `sanitizeValue` that fit on it. One call more throws,
as it does in the engine, and `sanitizeObject` catches that too.

**The engine** gives the messages of its own errors, which name no data, and tells which keys are the
texts of numbers. All that is thrown here is an `Error`.

**The output** of a record is filled one assignment after another. The key `__proto__` sets its
prototype. If that is binary data, which is handed on as it is where it is not summarized, a later
assignment may throw, also the one in the `catch` block.
-/

set_option autoImplicit false

namespace QuietStorage.Logger

open Lib Lib.Js

def MAX_STRING_LENGTH : Nat := 256
def MAX_ARRAY_ITEMS : Nat := 50
def MAX_OBJECT_KEYS : Nat := 100
def MAX_DEPTH : Nat := 8
def BINARY_PREVIEW_BYTES : Nat := 16
def TRUNCATION_SUFFIX : JsString := ascii "...[truncated]"
def REDACTED_VALUE : JsString := ascii "[redacted]"

def SENSITIVE_KEY_PARTS : List JsString :=
  [ascii "authorization", ascii "password", ascii "passphrase", ascii "secret", ascii "privatekey",
    ascii "signingprivatekey", ascii "accesstoken", ascii "refreshtoken", ascii "idtoken",
    ascii "token", ascii "ucan", ascii "credential", ascii "apikey", ascii "keyring",
    ascii "teamkeyring", ascii "deviceprivatekey"]

structure LogSanitizerOptions where
  sanitizeValues : Option Bool := none
  summarizeBinary : Option Bool := none

/-- `Required<LogSanitizerOptions>`. -/
structure RequiredOptions where
  sanitizeValues : Bool
  summarizeBinary : Bool
  deriving DecidableEq, Repr

def LogSanitizerOptions.required (options : LogSanitizerOptions) : RequiredOptions where
  sanitizeValues := options.sanitizeValues.getD true
  summarizeBinary := options.summarizeBinary.getD true

/-- What the engine says: the messages of its errors, and which keys are the texts of numbers. -/
structure Engine where
  message : Exception → JsString
  short : ∀ error, (message error).length ≤ 238
  isNumericIndex : JsString → Bool

/-- The text of a whole number, which is counted exactly. -/
def isWholeNumber (key : JsString) : Bool :=
  let digits := if key.head? = some 45 then key.tail else key
  digits ≠ [] && digits.length ≤ 15 && digits.all (fun u => 48 ≤ u && u ≤ 57) &&
    (digits.length = 1 || digits.head? ≠ some 48)

/-- The messages of V8. Of the keys that are numbers only the whole ones are told. -/
def Engine.v8 : Engine where
  message
    | .ofUndefined => ascii "Cannot read properties of undefined (reading 'name')"
    | .ofNull => ascii "Cannot read properties of null (reading 'name')"
    | .symbolText => ascii "Cannot convert a Symbol value to a string"
    | .noPrimitive => ascii "Cannot convert object to primitive value"
    | .invalidTime => ascii "Invalid time value"
    | .readOnly .bytesPerElement =>
      ascii "Cannot assign to read only property 'BYTES_PER_ELEMENT' of object '#<Object>'"
    | .readOnly property =>
      ascii "Cannot set property " ++ property.name ++ ascii " of #<Object> which has only a getter"
    | .stackOverflow => ascii "Maximum call stack size exceeded"
  short error := by
    cases error with
    | readOnly property => cases property <;> decide
    | _ => decide
  isNumericIndex := isWholeNumber

/-! ## The output -/

/-- A value of the input, or an object that the sanitizer has made. -/
inductive Output where
  | value (v : Value)
  /-- Binary data of the input, as it is. -/
  | binary (r : Nat) (kind : BinaryKind) (bytes : List UInt8)
  | array (items : List Output)
  /-- A record has the prototype of every object, or one that was assigned to `__proto__`. -/
  | record (prototype : Option Output) (fields : List (JsString × Output))

namespace Output

def text (s : JsString) : Output := .value (.string s)

def count (n : Nat) : Output := .value (.number (.ofNat n))

def plain (fields : List (JsString × Output)) : Output := .record none fields

/-- What `__proto__` can be set to: an object, or `null`. -/
def isPrototype : Output → Bool
  | .value .null | .value (.ref _) | .value (.function _ _) => true
  | .value _ => false
  | .binary _ _ _ | .array _ | .record _ _ => true

/-- The chain of prototypes, if it ends in binary data. -/
def chain : Output → Option Chain
  | .binary _ kind bytes => some ⟨kind, kind.items? bytes, fun _ => false⟩
  | .record (some prototype) fields =>
    prototype.chain.map (Chain.behind fun key => fields.any fun field => field.1 == key)
  | _ => none

end Output

/-- A record while it is filled. -/
structure Filling where
  prototype : Option Output := none
  fields : List (JsString × Output) := []

def Filling.output (filling : Filling) : Output := .record filling.prototype filling.fields

/-- One field is written, in its place if it is there. -/
def setField (fields : List (JsString × Output)) (key : JsString) (out : Output) :
    List (JsString × Output) :=
  if fields.any fun field => field.1 == key then
    fields.map fun field => if field.1 == key then (key, out) else field
  else fields ++ [(key, out)]

/-- `output[key] = out`, in strict mode. -/
def Filling.assign (engine : Engine) (filling : Filling) (key : JsString) (out : Output) :
    Except Exception Filling :=
  if key = ascii "__proto__" then
    .ok { filling with prototype := if out.isPrototype then some out else filling.prototype }
  else
    match (filling.output.chain).bind fun chain => chain.refusal key with
    | some property => .error (.readOnly property)
    | none =>
      if (filling.output.chain).any fun chain => chain.ignores engine.isNumericIndex key then
        .ok filling
      else .ok { filling with fields := setField filling.fields key out }

/-! ## Strings and keys -/

def truncateString (value : JsString) : JsString :=
  if value.length ≤ MAX_STRING_LENGTH then value
  else value.take (MAX_STRING_LENGTH - TRUNCATION_SUFFIX.length) ++ TRUNCATION_SUFFIX

def isAlphanumeric (u : UInt16) : Bool :=
  (48 ≤ u && u ≤ 57) || (65 ≤ u && u ≤ 90) || (97 ≤ u && u ≤ 122)

/-- `toLowerCase()` of an alphanumeric character. -/
def toLowerCase (u : UInt16) : UInt16 := if 65 ≤ u && u ≤ 90 then u + 32 else u

def isSensitiveKey (key : JsString) : Bool :=
  let normalized := (key.filter isAlphanumeric).map toLowerCase
  SENSITIVE_KEY_PARTS.any fun part => includes normalized part

example : isSensitiveKey (ascii "Access-Token") = true := by decide

/-! ## Values without parts -/

section
variable (options : RequiredOptions)

/-- A string of the input, cut if values are sanitized. -/
def shown (value : JsString) : Output :=
  .text (if options.sanitizeValues then truncateString value else value)

def sanitizePrimitive : Value → Option Output
  | .string s => some (shown options s)
  | .number n => some (.value (.number n))
  | .boolean b => some (.value (.boolean b))
  | .undefined => some (.value .undefined)
  | .null => some (.value .null)
  | .bigint n =>
    some (.text ((if n < 0 then ascii "-" else []) ++ decimal n.natAbs ++ ascii "n"))
  | .symbol description => some (.text (ascii "Symbol(" ++ description ++ ascii ")"))
  | .function name _ =>
    some (.text (ascii "[Function " ++ (if name.length > 0 then name else ascii "anonymous") ++
      ascii "]"))
  | .ref _ => none

def hexDigit (n : Nat) : UInt16 := if n < 10 then UInt16.ofNat (48 + n) else UInt16.ofNat (87 + n)

/-- `toString('hex')`. -/
def hex (bytes : List UInt8) : JsString :=
  bytes.flatMap fun byte => [hexDigit (byte.toNat / 16), hexDigit (byte.toNat % 16)]

def describeBytes (type : JsString) (bytes : List UInt8) : Output :=
  .plain
    [(ascii "type", .text type), (ascii "byteLength", .count bytes.length),
      (ascii "previewHex", .text (hex (bytes.take BINARY_PREVIEW_BYTES))),
      (ascii "truncated", .value (.boolean (decide (BINARY_PREVIEW_BYTES < bytes.length))))]

def describeBinary (r : Nat) (kind : BinaryKind) (bytes : List UInt8) : Output :=
  if options.summarizeBinary then
    match kind with
    | .buffer => describeBytes (ascii "Buffer") bytes
    | .arrayBuffer => describeBytes (ascii "ArrayBuffer") bytes
    | .view constructorName _ => describeBytes constructorName bytes
  else .binary r kind bytes

/-- A record that a Buffer was serialized to: its `data`, with the items. -/
def asSerializedBuffer (g : Graph) (fields : List (JsString × Value)) : Option (Value × List Value) :=
  if fields.lookup (ascii "type") = some (.string (ascii "Buffer")) then
    match fields.lookup (ascii "data") with
    | some data => (g.items? data).map fun items => (data, items)
    | none => none
  else none

def byteOf : Value → Option UInt8
  | .number n => some n.toUint8
  | _ => none

def describeSerializedBuffer (data : Value) (items : List Value) : Output :=
  if options.summarizeBinary then
    let previewBytes := (items.take BINARY_PREVIEW_BYTES).filterMap byteOf
    .plain
      [(ascii "type", .text (ascii "Buffer")), (ascii "byteLength", .count items.length),
        (ascii "previewHex",
          if previewBytes.length > 0 then .text (hex previewBytes) else .value .undefined),
        (ascii "truncated", .value (.boolean (decide (BINARY_PREVIEW_BYTES < items.length))))]
  else .plain [(ascii "type", .text (ascii "Buffer")), (ascii "data", .value data)]

/-! ## Values with parts -/

/-- The output for an Error, but for its cause. -/
def errorOutput (constructorName name message : JsString) (stack : Option JsString) :
    List (JsString × Output) :=
  [(ascii "type", .text constructorName), (ascii "name", .text name),
    (ascii "message", shown options message)] ++
  match stack with
  | some stack => [(ascii "stack", shown options stack)]
  | none => []

/-- The items that are gone through. -/
def visible {α : Type} (limit : Nat) (items : List α) : List α :=
  if options.sanitizeValues then items.take limit else items

def appendTruncationMarker (items : List Output) (originalLength : Nat) : List Output :=
  if originalLength ≤ MAX_ARRAY_ITEMS then items
  else
    items ++
      [.plain
        [(ascii "type", .text (ascii "TruncatedArray")),
          (ascii "omittedItems", .count (originalLength - MAX_ARRAY_ITEMS))]]

/-- The items, with a marker if values are sanitized and there were too many. -/
def marked (items : List Output) (originalLength : Nat) : Output :=
  .array (if options.sanitizeValues then appendTruncationMarker items originalLength else items)

/-- The depth limit is reached. -/
def tooDeep (depth : Nat) : Bool := options.sanitizeValues && decide (MAX_DEPTH ≤ depth)

def circular : Output := .text (ascii "[Circular]")

end

/-- A program of the sanitizer: it keeps the seen set, and may throw. -/
abbrev Sanitizing (α : Type) := Traversal Nat Exception α

section
variable (engine : Engine) (g : Graph) (visit : Nat → Sanitizing Output → Sanitizing Output)
  (options : RequiredOptions) (recur : Nat → Value → Option JsString → Sanitizing Output)

def sanitizeError (depth : Nat) (constructorName name message : JsString) (stack : Option JsString)
    (cause : Value) : Sanitizing Output :=
  let output := errorOutput options constructorName name message stack
  if cause.isNullish then pure (.plain output)
  else do
    let sanitized ← recur (depth + 1) cause (some (ascii "cause"))
    pure (.plain (output ++ [(ascii "cause", sanitized)]))

/-- One entry of a Map. -/
def sanitizeEntry (depth : Nat) (entry : Value × Value) : Sanitizing Output := do
  let key ← recur (depth + 1) entry.1 none
  let name ← MonadExcept.ofExcept (g.stringOf entry.1)
  let value ← recur (depth + 1) entry.2 (some name)
  pure (.array [key, value])

/-- A container is rendered by its parts, unless it is seen or too deep. -/
def sanitizeContainer (depth r : Nat) (marker limit : Output) (parts : Sanitizing Output) :
    Sanitizing Output := do
  let seen ← get
  if r ∈ seen then pure marker
  else if tooDeep options depth then pure limit
  else visit r parts

def sanitizeMap (depth r : Nat) (entries : List (Value × Value)) : Sanitizing Output :=
  sanitizeContainer visit options depth r circular
    (.text (ascii "[MaxDepth:Map size=" ++ decimal entries.length ++ ascii "]")) do
      let sanitizedEntries ←
        (visible options MAX_ARRAY_ITEMS entries).mapM (sanitizeEntry g recur depth)
      pure (.plain
        [(ascii "type", .text (ascii "Map")), (ascii "size", .count entries.length),
          (ascii "entries", marked options sanitizedEntries entries.length)])

/-- One item of a Set or an array. -/
def sanitizeItem (depth : Nat) (item : Value) : Sanitizing Output := recur (depth + 1) item none

def sanitizeSet (depth r : Nat) (values : List Value) : Sanitizing Output :=
  sanitizeContainer visit options depth r circular
    (.text (ascii "[MaxDepth:Set size=" ++ decimal values.length ++ ascii "]")) do
      let sanitizedValues ←
        (visible options MAX_ARRAY_ITEMS values).mapM (sanitizeItem recur depth)
      pure (.plain
        [(ascii "type", .text (ascii "Set")), (ascii "size", .count values.length),
          (ascii "values", marked options sanitizedValues values.length)])

def sanitizeArray (depth r : Nat) (value : List Value) : Sanitizing Output :=
  sanitizeContainer visit options depth r (.array [circular])
    (.array [.text (ascii "[MaxDepth:Array length=" ++ decimal value.length ++ ascii "]")]) do
      let sanitized ← (visible options MAX_ARRAY_ITEMS value).mapM (sanitizeItem recur depth)
      pure (marked options sanitized value.length)

/-- What stands for a property that throws. -/
def unserializable (error : Exception) : Output :=
  .text (ascii "[Unserializable: " ++ engine.message error ++ ascii "]")

/-- One property of a record: what it throws is caught. -/
def sanitizeProperty (depth : Nat) (output : Filling) (field : JsString × Value) :
    Sanitizing Filling :=
  try
    let out ← recur (depth + 1) field.2 (some field.1)
    MonadExcept.ofExcept (output.assign engine field.1 out)
  catch error =>
    MonadExcept.ofExcept (output.assign engine field.1 (unserializable engine error))

/-- A record with its type, unless that is `Object`. -/
def typedFilling (type : Value) : Filling where
  fields := if type = .string (ascii "Object") then [] else [(ascii "type", .value type)]

/-- How many keys are left out is written too. -/
def countTruncated (output : Filling) (keys : Nat) : Except Exception Filling :=
  if options.sanitizeValues && decide (MAX_OBJECT_KEYS < keys) then
    output.assign engine (ascii "__truncatedKeys") (.count (keys - MAX_OBJECT_KEYS))
  else .ok output

/-- The output for a record: its type, the properties, and how many are left out. -/
def sanitizeProperties (depth : Nat) (type : Value) (fields : List (JsString × Value)) :
    Sanitizing Output := do
  let output ← (visible options MAX_OBJECT_KEYS fields).foldlM (sanitizeProperty engine recur depth)
    (typedFilling type)
  let output ← MonadExcept.ofExcept (countTruncated engine options output fields.length)
  pure output.output

def sanitizeObject (depth r : Nat) (inherited : Option JsString) (fields : List (JsString × Value)) :
    Sanitizing Output := do
  let seen ← get
  if r ∈ seen then pure circular
  else do
    let type ← MonadExcept.ofExcept (g.constructorName inherited fields)
    if tooDeep options depth then do
      let text ← MonadExcept.ofExcept (g.toText type)
      pure (.text (ascii "[MaxDepth:" ++ text ++ ascii "]"))
    else visit r (sanitizeProperties engine options recur depth type fields)

/-- The branches of `sanitizeValue` for an object. -/
def sanitizeNode (depth r : Nat) : Node → Sanitizing Output
  | .binary kind bytes _ => pure (describeBinary options r kind bytes)
  | .error constructorName name message stack cause =>
    sanitizeError options recur depth constructorName name message stack cause
  | .date (some iso) _ => pure (.text iso.1)
  | .date none _ => throw .invalidTime
  | .map entries => sanitizeMap g visit options recur depth r entries
  | .set values => sanitizeSet visit options recur depth r values
  | .array items => sanitizeArray visit options recur depth r items
  | .record inherited fields =>
    match asSerializedBuffer g fields with
    | some (data, items) => pure (describeSerializedBuffer options data items)
    | none => sanitizeObject engine g visit options recur depth r inherited fields

/-- The key is sensitive, if there is one. -/
def redacted (key : Option JsString) : Bool := options.sanitizeValues && key.any isSensitiveKey

/-- One call of `sanitizeValue`. -/
def sanitizeStep (depth : Nat) (value : Value) (key : Option JsString) : Sanitizing Output :=
  if redacted options key then pure (.text REDACTED_VALUE)
  else
    match sanitizePrimitive options value with
    | some out => pure out
    | none =>
      match value with
      | .ref r => sanitizeNode engine g visit options recur depth r (g.node r)
      -- Nothing else is left.
      | _ => pure (.value value)

end

section
variable (engine : Engine) (g : Graph) (visit : Nat → Sanitizing Output → Sanitizing Output)
  (options : RequiredOptions)

def sanitizeValue : (stack : Nat) → Nat → Value → Option JsString → Sanitizing Output
  | 0 => fun _ _ _ => throw .stackOverflow
  | stack + 1 => sanitizeStep engine g visit options (sanitizeValue stack)

end

def sanitizeLogValue (engine : Engine) (g : Graph) (stack : Nat) (value : Value)
    (options : LogSanitizerOptions := {}) : Except Exception Output :=
  ((sanitizeValue engine g Traversal.addDelete options.required stack 0 value none).walk []).1

end QuietStorage.Logger
