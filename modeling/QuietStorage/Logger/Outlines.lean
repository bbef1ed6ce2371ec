import QuietStorage.Logger.Sanitizer

/-!
# Logger.Outlines — a record that is being filled

The output of a record is filled one assignment after another (`Assigned`). Of what is filled an
`Outline` tells which keys are there, and which binary data is among the prototypes. This is all that
decides about the next assignment (`outline_assign`): whether it throws, is ignored, or is done.
-/

set_option autoImplicit false

namespace QuietStorage.Logger

open Lib Lib.Js Lib.Traversal

/-! ## Fields -/

section
variable {fields : List (JsString × Output)} {key : JsString} {out : Output} {field : JsString × Output}

theorem mem_setField (mem : field ∈ setField fields key out) :
    field = (key, out) ∨ (field ∈ fields ∧ field.1 ≠ key) := by
  unfold setField at mem
  split at mem
  · obtain ⟨field', mem', rfl⟩ := List.mem_map.mp mem
    split
    · exact .inl rfl
    · next notKey => exact .inr ⟨mem', fun isKey => notKey (beq_iff_eq.mpr isKey)⟩
  · next none_ =>
    rcases List.mem_append.mp mem with mem | mem
    · refine .inr ⟨mem, fun isKey => none_ ?_⟩
      exact List.any_eq_true.mpr ⟨field, mem, beq_iff_eq.mpr isKey⟩
    · exact .inl (List.mem_singleton.mp mem)

theorem mem_setField_self : (key, out) ∈ setField fields key out := by
  unfold setField
  split
  · next some_ =>
    obtain ⟨field, mem, isKey⟩ := List.any_eq_true.mp some_
    exact List.mem_map.mpr ⟨field, mem, if_pos isKey⟩
  · exact List.mem_append_right _ (List.mem_singleton_self _)

theorem mem_setField_of_ne (mem : field ∈ fields) (ne : field.1 ≠ key) :
    field ∈ setField fields key out := by
  unfold setField
  split
  · exact List.mem_map.mpr ⟨field, mem, if_neg fun isKey => ne (eq_of_beq isKey)⟩
  · exact List.mem_append_left _ mem

theorem length_setField : (setField fields key out).length ≤ fields.length + 1 := by
  unfold setField
  split
  · simp
  · simp

theorem any_setField (fields : List (JsString × Output)) (key : JsString) (out : Output)
    (key' : JsString) :
    ((setField fields key out).any fun field => field.1 == key') =
      ((fields.any fun field => field.1 == key') || key' == key) := by
  unfold setField
  split
  · next there =>
    rw [Bool.eq_iff_iff]
    simp only [List.any_map, Bool.or_eq_true, List.any_eq_true, Function.comp_apply, beq_iff_eq] at there ⊢
    constructor
    · rintro ⟨field, mem, isKey⟩
      split at isKey
      · exact .inr isKey.symm
      · exact .inl ⟨field, mem, isKey⟩
    · rintro (⟨field, mem, isKey⟩ | rfl)
      · refine ⟨field, mem, ?_⟩
        split
        · next same => exact same.symm.trans isKey
        · exact isKey
      · obtain ⟨field, mem, isKey⟩ := there
        exact ⟨field, mem, by rw [if_pos isKey]⟩
  · simp only [List.any_append, List.any_cons, List.any_nil, Bool.or_false]
    rw [Bool.beq_comm]

end

/-! ## Outlines -/

/-- What is known of a record while it is filled: which keys it has, and the binary data among its
prototypes. -/
structure Outline where
  own : JsString → Bool
  above : Option Chain

def Filling.outline (filling : Filling) : Outline where
  own key := filling.fields.any fun field => field.1 == key
  above := filling.prototype.bind Output.chain

/-- What an output is when it is assigned to `__proto__`: nothing if it cannot be a prototype. -/
def Output.asPrototype (out : Output) : Option (Option Chain) :=
  if out.isPrototype then some (out.chain) else none

namespace Outline

def chain (outline : Outline) : Option Chain := outline.above.map (Chain.behind outline.own)

/-- The assignment is without effect. -/
def ignores (engine : Engine) (outline : Outline) (key : JsString) : Bool :=
  outline.chain.any fun chain => chain.ignores engine.isNumericIndex key

/-- Something is in the way of an assignment. -/
def refuses (outline : Outline) (key : JsString) : Bool :=
  key ≠ ascii "__proto__" && (outline.chain.bind fun chain => chain.refusal key).isSome

/-- One assignment, if nothing is in its way. -/
def assign (engine : Engine) (outline : Outline) (key : JsString) (prototype : Option (Option Chain)) :
    Option Outline :=
  if key = ascii "__proto__" then some { outline with above := prototype.getD outline.above }
  else if outline.refuses key then none
  else if outline.ignores engine key then some outline
  else some { outline with own := fun key' => outline.own key' || key' == key }

/-- The record when its keys are counted. -/
def finish (engine : Engine) (outline : Outline) (truncated : Bool) : Outline :=
  if truncated then (outline.assign engine (ascii "__truncatedKeys") none).getD outline else outline

end Outline

section
variable {engine : Engine}

theorem assign_eq_none {outline : Outline} {key : JsString} {prototype : Option (Option Chain)} :
    outline.assign engine key prototype = none ↔ outline.refuses key = true := by
  unfold Outline.assign
  split
  · next isProto => simp [Outline.refuses, isProto]
  · split
    · next refused => simp [refused]
    · next free =>
      rw [Bool.eq_false_iff.mpr free]
      split
      · simp
      · simp

theorem chain_output (filling : Filling) : filling.output.chain = (filling.outline).chain := by
  rcases filling with ⟨prototype, fields⟩
  cases prototype with
  | none => rfl
  | some prototype => rfl

/-- An assignment, in outline. -/
theorem outline_assign (filling : Filling) (key : JsString) (out : Output) :
    (filling.assign engine key out).toOption.map (Filling.outline) =
      (filling.outline).assign engine key (out.asPrototype) := by
  unfold Filling.assign Outline.assign Outline.ignores
  rw [chain_output]
  split
  · unfold Filling.outline Output.asPrototype
    cases out.isPrototype with
    | true => rfl
    | false => rfl
  · next notProto =>
    unfold Outline.refuses
    cases (filling.outline).chain.bind fun chain => chain.refusal key with
    | some property =>
      rw [Option.isSome_some, Bool.and_true, decide_eq_true notProto, if_pos rfl]
      rfl
    | none =>
      rw [Option.isSome_none, Bool.and_false, if_neg Bool.false_ne_true]
      dsimp only
      split
      · rfl
      · refine congrArg some ?_
        unfold Filling.outline
        simp only [any_setField]

/-- What is in the way of an assignment is in the way of every one to that key. -/
theorem assign_error {filling : Filling} {key : JsString} {out : Output} {error : Exception}
    (refused : filling.assign engine key out = .error error) (out' : Output) :
    filling.assign engine key out' = .error error := by
  unfold Filling.assign at *
  split at refused
  · cases refused
  · next notProto =>
    rw [if_neg notProto]
    split at refused
    · exact refused
    · split at refused
      · cases refused
      · cases refused

theorem outline_assign_ok {filling filling' : Filling} {key : JsString} {out : Output}
    (assigned : filling.assign engine key out = .ok filling') :
    (filling.outline).assign engine key (out.asPrototype) = some (filling'.outline) := by
  rw [← outline_assign, assigned]
  rfl

/-- An assignment that is possible in outline is done. -/
theorem assign_ok_of_outline {filling : Filling} {key : JsString} {out : Output} {outline : Outline}
    (assigned : (filling.outline).assign engine key (out.asPrototype) = some outline) :
    ∃ filling', filling.assign engine key out = .ok filling' ∧ filling'.outline = outline := by
  rw [← outline_assign] at assigned
  cases isAssigned : filling.assign engine key out with
  | ok filling' =>
    rw [isAssigned] at assigned
    exact ⟨filling', rfl, Option.some.inj assigned⟩
  | error error =>
    rw [isAssigned] at assigned
    cases assigned

/-- What is in the way of an assignment in outline is so in full. -/
theorem assign_error_of_refuses (engine : Engine) {filling : Filling} {key : JsString}
    (refused : (filling.outline).refuses key = true) (out : Output) :
    ∃ error, filling.assign engine key out = .error error := by
  cases isAssigned : filling.assign engine key out with
  | error error => exact ⟨error, rfl⟩
  | ok filling' =>
    have assigned := outline_assign_ok isAssigned
    rw [assign_eq_none.mpr refused] at assigned
    cases assigned

theorem outline_assign_error {filling : Filling} {key : JsString} {out : Output} {error : Exception}
    (refused : filling.assign engine key out = .error error) :
    (filling.outline).assign engine key (out.asPrototype) = none := by
  rw [← outline_assign, refused]
  rfl

end

/-! ## Assignments -/

/-- **What an assignment does.** -/
inductive Assigned (engine : Engine) (filling : Filling) : JsString → Output → Filling → Prop
  | prototype {out : Output} (isPrototype : out.isPrototype = true) :
    Assigned engine filling (ascii "__proto__") out { filling with prototype := some out }
  | noPrototype {out : Output} (noPrototype : out.isPrototype = false) :
    Assigned engine filling (ascii "__proto__") out filling
  | ignored {key : JsString} {out : Output} (notProto : key ≠ ascii "__proto__")
    (ignored : (filling.outline).ignores engine key = true) : Assigned engine filling key out filling
  | field {key : JsString} {out : Output} (notProto : key ≠ ascii "__proto__")
    (taken : (filling.outline).ignores engine key = false) :
    Assigned engine filling key out { filling with fields := setField filling.fields key out }

section
variable {engine : Engine} {filling filling' : Filling} {key : JsString} {out : Output}
  {field : JsString × Output}

theorem assign_spec (assigned : filling.assign engine key out = .ok filling') :
    Assigned engine filling key out filling' := by
  unfold Filling.assign at assigned
  rw [chain_output] at assigned
  split at assigned
  · next isProto =>
    subst isProto
    cases assigned
    split
    · next isPrototype => exact .prototype isPrototype
    · next noPrototype => exact .noPrototype (Bool.eq_false_iff.mpr noPrototype)
  · next notProto =>
    split at assigned
    · cases assigned
    · split at assigned
      · next ignored =>
        cases assigned
        exact .ignored notProto ignored
      · next taken =>
        cases assigned
        exact .field notProto (Bool.eq_false_iff.mpr taken)

/-- A property that is there can be written. -/
theorem not_ignores_of_own {outline : Outline} (own : outline.own key = true) :
    outline.ignores engine key = false := by
  unfold Outline.ignores Outline.chain
  cases outline.above with
  | none => rfl
  | some chain => simp [Chain.ignores, Chain.behind, own]

theorem own_of_mem (mem : field ∈ filling.fields) : (filling.outline).own field.1 = true :=
  List.any_eq_true.mpr ⟨field, mem, beq_self_eq_true _⟩

namespace Assigned

variable (assigned : Assigned engine filling key out filling')
include assigned

/-- What is in the record afterwards was assigned, or was there, and then under another key. -/
theorem mem (mem : field ∈ filling'.fields) :
    field = (key, out) ∧ (filling.outline).ignores engine key = false ∧ key ≠ ascii "__proto__" ∨
      field ∈ filling.fields ∧ (field.1 ≠ ascii "__proto__" → key ≠ field.1) := by
  cases assigned with
  | prototype _ => exact .inr ⟨mem, fun notProto isKey => notProto isKey.symm⟩
  | noPrototype _ => exact .inr ⟨mem, fun notProto isKey => notProto isKey.symm⟩
  | ignored _ ignored =>
    refine .inr ⟨mem, fun _ isKey => ?_⟩
    rw [isKey, not_ignores_of_own (own_of_mem mem)] at ignored
    cases ignored
  | field notProto taken =>
    rcases mem_setField mem with isField | ⟨mem, ne⟩
    · exact .inl ⟨isField, taken, notProto⟩
    · exact .inr ⟨mem, fun _ => ne.symm⟩

theorem mem_of_ne (mem : field ∈ filling.fields) (ne : field.1 ≠ key) : field ∈ filling'.fields := by
  cases assigned with
  | field _ _ => exact mem_setField_of_ne mem ne
  | _ => exact mem

theorem length_le : filling'.fields.length ≤ filling.fields.length + 1 := by
  cases assigned with
  | field _ _ => exact length_setField
  | _ => exact Nat.le_succ _

end Assigned

end

/-! ## The record of an object -/

theorem length_typedFilling (type : Value) : (typedFilling type).fields.length ≤ 1 := by
  unfold typedFilling
  dsimp only
  split
  · simp
  · simp

theorem mem_typedFilling {type : Value} {field : JsString × Output}
    (mem : field ∈ (typedFilling type).fields) : field = (ascii "type", .value type) := by
  unfold typedFilling at mem
  dsimp only at mem
  split at mem
  · cases mem
  · exact List.mem_singleton.mp mem

/-- What is assigned of a property. -/
def assignedOutput (engine : Engine) : Except Exception Output → Output
  | .ok out => out
  | .error error => unserializable engine error

section
variable {engine : Engine} {filling filling' : Filling} {depth : Nat} {seen seen' : List Nat}
  {recur : Nat → Value → Option JsString → Sanitizing Output}

/-- The value of a property is tried, and then assigned. -/
theorem walk_sanitizeProperty {key : JsString} {v : Value} {result : Except Exception Output}
    (value : (recur (depth + 1) v (some key)).walk seen = (result, seen')) :
    (sanitizeProperty engine recur depth filling (key, v)).walk seen =
      (filling.assign engine key (assignedOutput engine result), seen') := by
  unfold sanitizeProperty
  rw [walk_tryCatch, walk_bind, value]
  cases result with
  | error error => exact walk_ofExcept _ _
  | ok out =>
    dsimp only [assignedOutput]
    rw [walk_ofExcept]
    cases assigned : filling.assign engine key out with
    | ok filling' => rfl
    | error error =>
      dsimp only
      rw [walk_ofExcept, assign_error assigned]

/-- A property is written with what comes of its value. -/
theorem sanitizeProperty_eq_ok {property : JsString × Value}
    (ran : (sanitizeProperty engine recur depth filling property).walk seen = (.ok filling', seen')) :
    ∃ result, (recur (depth + 1) property.2 (some property.1)).walk seen = (result, seen') ∧
      filling.assign engine property.1 (assignedOutput engine result) = .ok filling' := by
  obtain ⟨key, v⟩ := property
  rcases ran' : (recur (depth + 1) v (some key)).walk seen with ⟨result, seen₁⟩
  rw [walk_sanitizeProperty ran'] at ran
  obtain ⟨assigned, rfl⟩ := Prod.mk.inj ran
  exact ⟨result, rfl, assigned⟩

/-- The number of keys can always be written. -/
theorem countTruncated_ok (engine : Engine) (options : RequiredOptions) (filling : Filling)
    (keys : Nat) :
    ∃ filling', countTruncated engine options filling keys = .ok filling' ∧
      filling'.outline =
        (filling.outline).finish engine (options.sanitizeValues && decide (MAX_OBJECT_KEYS < keys)) := by
  have free : ∀ chain : Chain, chain.refusal (ascii "__truncatedKeys") = none := by
    intro chain
    unfold Chain.refusal
    split
    · rfl
    · refine List.find?_eq_none.mpr fun property _ => ?_
      cases property <;> decide
  unfold countTruncated Outline.finish
  split
  · cases assigned : filling.assign engine (ascii "__truncatedKeys") (.count (keys - MAX_OBJECT_KEYS)) with
    | ok filling' =>
      refine ⟨filling', rfl, ?_⟩
      have outlined := outline_assign_ok assigned
      have plain : (Output.count (keys - MAX_OBJECT_KEYS)).asPrototype = none := rfl
      rw [plain] at outlined
      rw [outlined, Option.getD_some]
    | error error =>
      have refused := assign_eq_none.mp (outline_assign_error assigned)
      have unrefused : ((filling.outline).chain.bind fun chain =>
          chain.refusal (ascii "__truncatedKeys")) = none := by simp [free]
      rw [Outline.refuses, unrefused, Option.isSome_none, Bool.and_false] at refused
      cases refused
  · exact ⟨filling, rfl, rfl⟩

end

end QuietStorage.Logger
