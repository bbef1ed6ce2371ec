import Mathlib.Algebra.GroupWithZero.Nat
import Mathlib.Tactic.Common

/-!
# Lib.JsValue — what a program without types does with a message

A value that was parsed from JSON, or that is read out of one, and the operations of JavaScript on it
that may fail: reading a property of `undefined` or `null` is a `TypeError`, and so is turning an
object into text when it has a `toString` of its own, since no value of JSON can be called.
-/

set_option autoImplicit false

namespace QuietStorage.Lib

/-- An error of the language itself. -/
inductive TypeError where
  | typeError
  deriving DecidableEq, Repr

/-- A value. JSON has no `undefined` and no function; the one is what a missing property reads as, the
other is a callback. A number is given by the text that it prints as: there is no `NaN` in JSON, and
two other numbers are `===` when they print the same. -/
inductive JsValue where
  | undefined
  | null
  | bool (b : Bool)
  | number (text : String)
  | string (s : String)
  | array (items : List JsValue)
  /-- The fields in their order; of two fields of one name the first counts. -/
  | object (fields : List (String × JsValue))
  | function

namespace JsValue

/-- An integer, as it prints below `10 ^ 21`. -/
def int (n : Int) : JsValue := .number (toString n)

/-- `value == null`. -/
def isNullish : JsValue → Bool
  | .undefined | .null => true
  | _ => false

def isFunction : JsValue → Bool
  | .function => true
  | _ => false

/-- `value === other`, of two values that have no object in common. -/
def strictEquals : JsValue → JsValue → Bool
  | .undefined, .undefined | .null, .null => true
  | .bool b, .bool b' => b == b'
  | .number text, .number text' => text == text'
  | .string s, .string s' => s == s'
  | _, _ => false

/-- `s.length`, in UTF-16 code units. -/
def stringLength (s : String) : Nat := (s.toList.map fun c => if c.toNat < 0x10000 then 1 else 2).sum

/-- A character inside the quotes of a JSON text. -/
def quoteChar (c : Char) : String :=
  let code := c.toNat
  if code = 0x22 then "\\\""
  else if code = 0x5c then "\\\\"
  else if code = 0x08 then "\\b"
  else if code = 0x0c then "\\f"
  else if code = 0x0a then "\\n"
  else if code = 0x0d then "\\r"
  else if code = 0x09 then "\\t"
  else if code < 0x10 then "\\u000" ++ String.ofList (Nat.toDigits 16 code)
  else if code < 0x20 then "\\u00" ++ String.ofList (Nat.toDigits 16 code)
  else c.toString

/-- `JSON.stringify` of a string. -/
def quote (s : String) : String := "\"" ++ String.join (s.toList.map quoteChar) ++ "\""

example : quote "a\"\n\x1f" = "\"a\\\"\\n\\u001f\"" := by decide

/-- `value.name`. Of an array, a string and a function only `length` is given here, of which the
last is never asked. -/
def property : JsValue → String → Except TypeError JsValue
  | .undefined, _ | .null, _ => .error .typeError
  | .object fields, name => .ok ((fields.lookup name).getD .undefined)
  | .array items, name =>
    .ok (if name = "length" then .number (toString items.length) else .undefined)
  | .string s, name =>
    .ok (if name = "length" then .number (toString (stringLength s)) else .undefined)
  | .bool _, _ | .number _, _ | .function, _ => .ok .undefined

/-- The own fields of `value`, as `{ ...value }` copies them. -/
def spread : JsValue → List (String × JsValue)
  | .object fields => fields
  | .array items => items.zipIdx.map fun item => (toString item.2, item.1)
  | .string s => s.toList.zipIdx.map fun c => (toString c.2, .string c.1.toString)
  | _ => []

/-- One field of an object is written. -/
def setField (fields : List (String × JsValue)) (name : String) (value : JsValue) :
    List (String × JsValue) :=
  if fields.any fun field => field.1 == name then
    fields.map fun field => if field.1 == name then (name, value) else field
  else fields ++ [(name, value)]

/-- `Array.isArray`, with the items. -/
def items? : JsValue → Option (List JsValue)
  | .array items => some items
  | _ => none

mutual

/-- `String(value)`, which is how a template prints it. -/
def text : JsValue → Except TypeError String
  | .undefined => .ok "undefined"
  | .null => .ok "null"
  | .bool b => .ok (toString b)
  | .number text => .ok text
  | .string s => .ok s
  | .array items => (joined items).map (",".intercalate ·)
  | .object fields =>
    if (fields.lookup "toString").isSome then .error .typeError else .ok "[object Object]"
  | .function => .ok "function"

/-- The texts that `join` puts together. -/
def joined : List JsValue → Except TypeError (List String)
  | [] => .ok []
  | item :: items => do
    let first ← if item.isNullish then pure "" else item.text
    let rest ← joined items
    pure (first :: rest)

end

/-- The value has a property of that name that is not nullish. -/
def Has (value : JsValue) (name : String) : Prop :=
  ∃ field, value.property name = .ok field ∧ field.isNullish = false

/-- A property can be read of every value that is not nullish. -/
theorem property_ok {value : JsValue} (name : String) (present : value.isNullish = false) :
    ∃ field, value.property name = .ok field := by
  cases value with
  | undefined => cases present
  | null => cases present
  | _ => exact ⟨_, rfl⟩

theorem property_nullish {value : JsValue} (name : String) (nullish : value.isNullish = true) :
    value.property name = .error .typeError := by
  cases value with
  | undefined => rfl
  | null => rfl
  | _ => cases nullish

theorem eq_of_strictEquals {value other : JsValue} (same : value.strictEquals other = true) :
    value = other := by
  unfold strictEquals at same
  split at same
  · rfl
  · rfl
  · rw [eq_of_beq same]
  · rw [eq_of_beq same]
  · rw [eq_of_beq same]
  · cases same

/-- Either the property is there, or reading a property of it throws. -/
theorem has_or_throws (value : JsValue) (name : String) :
    value.Has name ∨ ∀ inner, (do (← value.property name).property inner) = .error .typeError := by
  cases missing : value.isNullish with
  | true =>
    right
    intro inner
    rw [property_nullish name missing]
    rfl
  | false =>
    obtain ⟨field, read⟩ := property_ok name missing
    cases nullish : field.isNullish with
    | false => exact .inl ⟨field, read, nullish⟩
    | true =>
      right
      intro inner
      rw [read]
      exact property_nullish inner nullish

end JsValue

end QuietStorage.Lib
