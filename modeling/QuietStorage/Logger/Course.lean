import Mathlib.Data.Finset.Card
import Mathlib.Data.Finset.Range
import QuietStorage.Logger.Outlines
import QuietStorage.Logger.Turns

/-!
# Logger.Course — how the sanitizer goes through a value

`Goes` says how a call ends, and with which seen set, in terms of the objects and without the outputs.
It is a big-step relation with one rule for each turn. Of a record that is being filled it keeps an
outline, since binary data among its prototypes may be in the way of an assignment.

**Every call goes somehow** (`exists_goes`). The proof is by the number of objects that are not yet seen,
and within it along the causes.
-/

set_option autoImplicit false

namespace QuietStorage.Logger

open Lib Lib.Js Lib.Traversal

/-! ## How a call goes -/

/-- The cause of an Error. -/
inductive CauseOf (g : Graph) : Value → Value → Prop
  | error {r : Nat} {constructorName name message : JsString} {stack : Option JsString} {cause : Value}
    (isNode : g.node r = .error constructorName name message stack cause)
    (present : cause.isNullish = false) : CauseOf g cause (.ref r)

/-- How something ends: it returns what may be a prototype, or it throws. -/
inductive Fate where
  | returns (prototype : Option (Option Chain))
  | throws

namespace Fate

/-- Of what throws only a text is assigned. -/
def prototype : Fate → Option (Option Chain)
  | .returns prototype => prototype
  | .throws => none

/-- What is returned is put into a new object. -/
def wrapped : Fate → Fate
  | .returns _ => .returns (some none)
  | .throws => .throws

/-- An object is deleted from the seen set, unless an exception goes through it. -/
def leave (r : Nat) (seen : List Nat) : Fate → List Nat
  | .returns _ => seen.erase r
  | .throws => seen

/-- How a program has ended. -/
def of {α : Type} (prototype : α → Option (Option Chain)) : Except Exception α → Fate
  | .ok a => .returns (prototype a)
  | .error _ => .throws

end Fate

/-- What is to be done: a call, the parts of a container one after another, or the properties of a
record, of which so much is filled, and whose keys are counted at the end. -/
inductive Task where
  | call (depth : Nat) (v : Value) (key : Option JsString)
  | parts (depth : Nat) (parts : List Part)
  | properties (depth : Nat) (fields : List (JsString × Value)) (outline : Outline) (truncated : Bool)

section
variable (engine : Engine) (g : Graph) (options : RequiredOptions)

/-- The properties of a record, at the beginning. -/
def openedTask (depth : Nat) (type : Value) (fields : List (JsString × Value)) : Task :=
  .properties depth (visible options MAX_OBJECT_KEYS fields) ((typedFilling type).outline)
    (options.sanitizeValues && decide (MAX_OBJECT_KEYS < fields.length))

/-- **How a task goes**, from a seen set to another. -/
inductive Goes : Task → List Nat → Fate → List Nat → Prop
  | rests {depth : Nat} {v : Value} {key : Option JsString} {seen : List Nat} {out : Output}
    (isTurn : turn g options depth seen v key = .rests out) :
    Goes (.call depth v key) seen (.returns (out.asPrototype)) seen
  | fails {depth : Nat} {v : Value} {key : Option JsString} {seen : List Nat} {error : Exception}
    (isTurn : turn g options depth seen v key = .fails error) :
    Goes (.call depth v key) seen .throws seen
  /-- The causes have no end, but the stack has. -/
  | endless {depth : Nat} {v : Value} {key : Option JsString} {seen : List Nat}
    (notRedacted : redacted options key = false) (endless : ¬Acc (CauseOf g) v) :
    Goes (.call depth v key) seen .throws seen
  | follows {depth : Nat} {v : Value} {key : Option JsString} {seen seen' : List Nat}
    {output : List (JsString × Output)} {cause : Value} {fate : Fate}
    (isTurn : turn g options depth seen v key = .follows output cause)
    (goes : Goes (.call (depth + 1) cause (some (ascii "cause"))) seen fate seen') :
    Goes (.call depth v key) seen fate.wrapped seen'
  | enters {depth : Nat} {v : Value} {key : Option JsString} {seen seen' : List Nat} {r : Nat}
    {parts : List Part} {finish : List Output → Output} {fate : Fate}
    (isTurn : turn g options depth seen v key = .enters r parts finish)
    (goes : Goes (.parts depth parts) (r :: seen) fate seen') :
    Goes (.call depth v key) seen fate (fate.leave r seen')
  | opens {depth : Nat} {v : Value} {key : Option JsString} {seen seen' : List Nat} {r : Nat}
    {type : Value} {fields : List (JsString × Value)} {fate : Fate}
    (isTurn : turn g options depth seen v key = .opens r type fields)
    (goes : Goes (openedTask options depth type fields) (r :: seen) fate seen') :
    Goes (.call depth v key) seen fate (fate.leave r seen')
  | noParts {depth : Nat} {seen : List Nat} : Goes (.parts depth []) seen (.returns (some none)) seen
  | part {depth : Nat} {v : Value} {key : Option JsString} {parts : List Part}
    {seen seen' seen'' : List Nat} {prototype : Option (Option Chain)} {fate : Fate}
    (first : Goes (.call (depth + 1) v key) seen (.returns prototype) seen')
    (rest : Goes (.parts depth parts) seen' fate seen'') :
    Goes (.parts depth (.value v key :: parts)) seen fate seen''
  | partThrows {depth : Nat} {v : Value} {key : Option JsString} {parts : List Part}
    {seen seen' : List Nat} (first : Goes (.call (depth + 1) v key) seen .throws seen') :
    Goes (.parts depth (.value v key :: parts)) seen .throws seen'
  | unprintable {depth : Nat} {error : Exception} {parts : List Part} {seen : List Nat} :
    Goes (.parts depth (.unprintable error :: parts)) seen .throws seen
  | noProperties {depth : Nat} {outline : Outline} {truncated : Bool} {seen : List Nat} :
    Goes (.properties depth [] outline truncated) seen
      (.returns (some (outline.finish engine truncated).chain)) seen
  | property {depth : Nat} {key : JsString} {v : Value} {fields : List (JsString × Value)}
    {outline outline' : Outline} {truncated : Bool} {seen seen' seen'' : List Nat} {fate fate' : Fate}
    (value : Goes (.call (depth + 1) v (some key)) seen fate seen')
    (assigned : outline.assign engine key fate.prototype = some outline')
    (rest : Goes (.properties depth fields outline' truncated) seen' fate' seen'') :
    Goes (.properties depth ((key, v) :: fields) outline truncated) seen fate' seen''
  | refused {depth : Nat} {key : JsString} {v : Value} {fields : List (JsString × Value)}
    {outline : Outline} {truncated : Bool} {seen seen' : List Nat} {fate : Fate}
    (value : Goes (.call (depth + 1) v (some key)) seen fate seen')
    (refused : outline.refuses key = true) :
    Goes (.properties depth ((key, v) :: fields) outline truncated) seen .throws seen'

end

section
variable {engine : Engine} {g : Graph} {options : RequiredOptions} {task : Task}
  {seen seen' : List Nat} {fate : Fate}

theorem grows_leave {r : Nat} (fresh : r ∉ seen) (grows : Grows (r :: seen) seen') :
    Grows seen (fate.leave r seen') := by
  cases fate with
  | returns prototype => exact grows.erase
  | throws => exact grows.of_cons fresh

/-- An object that is entered and left without a trace has returned, and nothing was added inside. -/
theorem returns_of_leave {r : Nat} (grows : Grows (r :: seen) seen') (same : fate.leave r seen' = seen) :
    fate ≠ .throws ∧ seen' = r :: seen := by
  cases fate with
  | returns prototype => exact ⟨nofun, grows.eq_cons_of_erase same⟩
  | throws => exact absurd same grows.ne_of_cons

/-- **The seen set grows.** -/
theorem Goes.grows (goes : Goes engine g options task seen fate seen') : Grows seen seen' := by
  induction goes with
  | rests _ => exact Grows.refl _
  | fails _ => exact Grows.refl _
  | endless _ _ => exact Grows.refl _
  | follows _ _ ih => exact ih
  | enters isTurn _ ih => exact grows_leave (turn_enters isTurn).2.2.1 ih
  | opens isTurn _ ih => exact grows_leave (turn_opens isTurn).2.2.1 ih
  | noParts => exact Grows.refl _
  | part _ _ ihFirst ihRest => exact ihFirst.trans ihRest
  | partThrows _ ih => exact ih
  | unprintable => exact Grows.refl _
  | noProperties => exact Grows.refl _
  | property _ _ _ ihValue ihRest => exact ihValue.trans ihRest
  | refused _ _ ih => exact ih

end

/-! ## Every call goes somehow -/

/-- What the task is for is in the graph. -/
def Task.Within (g : Graph) : Task → Prop
  | .call _ v _ => v.Within g.size
  | .parts _ list => ∀ v key, Part.value v key ∈ list → v.Within g.size
  | .properties _ fields _ _ => ∀ field ∈ fields, field.2.Within g.size

/-- The objects that are not seen. -/
def unseen (g : Graph) (seen : List Nat) : Nat :=
  ((Finset.range g.size).filter fun r => r ∉ seen).card

section
variable {engine : Engine} {g : Graph} {options : RequiredOptions} {depth r : Nat}
  {seen seen' : List Nat}

theorem unseen_le (grows : Grows seen seen') : unseen g seen' ≤ unseen g seen := by
  refine Finset.card_le_card fun r mem => ?_
  simp only [Finset.mem_filter] at mem ⊢
  exact ⟨mem.1, fun isSeen => mem.2 (grows.subset isSeen)⟩

theorem unseen_lt (within : r < g.size) (fresh : r ∉ seen) :
    unseen g (r :: seen) < unseen g seen := by
  refine Finset.card_lt_card (Finset.ssubset_iff_of_subset ?_ |>.mpr ⟨r, ?_, ?_⟩)
  · intro r' mem
    simp only [Finset.mem_filter, List.mem_cons, not_or] at mem ⊢
    exact ⟨mem.1, mem.2.2⟩
  · simp [within, fresh]
  · simp

/-- The parts of a container are in the graph. -/
theorem Container.within {marker limit : Output} {parts : List Part} {finish : List Output → Output}
    (container : Container g options (g.node r) marker limit parts finish) (within : r < g.size) :
    Task.Within g (.parts depth parts) := by
  intro v key mem
  have held := g.closed r within
  generalize isNode : g.node r = node at container held
  cases container with
  | array items =>
    obtain ⟨item, memItem, same⟩ := List.mem_map.mp mem
    cases same
    exact held v (mem_of_mem_visible memItem)
  | set values =>
    obtain ⟨item, memItem, same⟩ := List.mem_map.mp mem
    cases same
    exact held v (mem_of_mem_visible memItem)
  | map entries =>
    obtain ⟨entry, memEntry, among⟩ := List.mem_flatMap.mp mem
    obtain ⟨insideKey, insideValue⟩ :=
      g.within_of_map within isNode entry (mem_of_mem_visible memEntry)
    unfold entryParts at among
    rcases List.mem_pair.mp among with same | same
    · cases same
      exact insideKey
    · cases isName : g.stringOf entry.1 with
      | ok name =>
        rw [isName] at same
        cases same
        exact insideValue
      | error error =>
        rw [isName] at same
        cases same

theorem within_enters {v : Value} {key : Option JsString} {parts : List Part}
    {finish : List Output → Output} (within : v.Within g.size)
    (isTurn : turn g options depth seen v key = .enters r parts finish) :
    r < g.size ∧ Task.Within g (.parts depth parts) := by
  obtain ⟨_, rfl, _, _, _, _, container⟩ := turn_enters isTurn
  exact ⟨within, container.within within⟩

theorem within_opens {v : Value} {key : Option JsString} {type : Value}
    {fields : List (JsString × Value)} (within : v.Within g.size)
    (isTurn : turn g options depth seen v key = .opens r type fields) :
    r < g.size ∧ Task.Within g (openedTask options depth type fields) := by
  obtain ⟨_, rfl, _, _, inherited, isNode, _⟩ := turn_opens isTurn
  exact ⟨within, fun field mem => g.within_of_record within isNode field (mem_of_mem_visible mem)⟩

theorem turn_follows_cause {v : Value} {key : Option JsString} {output : List (JsString × Output)}
    {cause : Value} (isTurn : turn g options depth seen v key = .follows output cause) :
    CauseOf g cause v := by
  obtain ⟨_, r, _, _, _, _, rfl, isNode, present, _⟩ := turn_follows isTurn
  exact .error isNode present

theorem CauseOf.within {cause v : Value} (isCause : CauseOf g cause v) (within : v.Within g.size) :
    cause.Within g.size := by
  cases isCause with
  | @error r _ _ _ _ _ isNode present =>
    refine g.closed r within cause ?_
    rw [isNode]
    exact List.mem_singleton_self cause

/-- The parts go somehow if calls do that see more. -/
theorem exists_goes_parts {bound : Nat}
    (calls : ∀ seen, unseen g seen < bound → ∀ depth v key, v.Within g.size →
      ∃ fate seen', Goes engine g options (.call depth v key) seen fate seen')
    {parts : List Part} (within : Task.Within g (.parts depth parts)) (fewer : unseen g seen < bound) :
    ∃ fate seen', Goes engine g options (.parts depth parts) seen fate seen' := by
  induction parts generalizing seen with
  | nil => exact ⟨_, _, .noParts⟩
  | cons part parts ih =>
    cases part with
    | unprintable error => exact ⟨_, _, .unprintable⟩
    | value v key =>
      obtain ⟨fate, seen', first⟩ := calls seen fewer (depth + 1) v key (within v key (.head _))
      cases fate with
      | throws => exact ⟨_, _, .partThrows first⟩
      | returns prototype =>
        obtain ⟨fate, seen'', rest⟩ := ih (fun v key mem => within v key (.tail _ mem))
          ((unseen_le first.grows).trans_lt fewer)
        exact ⟨_, _, .part first rest⟩

theorem exists_goes_properties {bound : Nat}
    (calls : ∀ seen, unseen g seen < bound → ∀ depth v key, v.Within g.size →
      ∃ fate seen', Goes engine g options (.call depth v key) seen fate seen')
    {fields : List (JsString × Value)} {outline : Outline} {truncated : Bool}
    (within : ∀ field ∈ fields, field.2.Within g.size) (fewer : unseen g seen < bound) :
    ∃ fate seen', Goes engine g options (.properties depth fields outline truncated) seen fate seen' := by
  induction fields generalizing seen outline with
  | nil => exact ⟨_, _, .noProperties⟩
  | cons field fields ih =>
    obtain ⟨key, v⟩ := field
    obtain ⟨fate, seen', value⟩ := calls seen fewer (depth + 1) v (some key) (within _ (.head _))
    cases isAssigned : outline.assign engine key fate.prototype with
    | none => exact ⟨_, _, .refused value (assign_eq_none.mp isAssigned)⟩
    | some outline' =>
      have rests : ∃ fate' seen'',
          Goes engine g options (.properties depth fields outline' truncated) seen' fate' seen'' :=
        ih (fun field mem => within field (.tail _ mem)) ((unseen_le value.grows).trans_lt fewer)
      obtain ⟨fate', seen'', rest⟩ := rests
      exact ⟨_, _, .property value isAssigned rest⟩

/-- **Every call goes somehow.** What is entered is one object less that is not seen, and causes come to
an end or throw. -/
theorem exists_goes (engine : Engine) (options : RequiredOptions) (seen : List Nat) (depth : Nat)
    {v : Value} (key : Option JsString) (within : v.Within g.size) :
    ∃ fate seen', Goes engine g options (.call depth v key) seen fate seen' := by
  induction hn : unseen g seen using Nat.strong_induction_on generalizing seen depth v key with
  | _ n ih =>
    have calls : ∀ seen, unseen g seen < n → ∀ depth v key, v.Within g.size →
        ∃ fate seen', Goes engine g options (.call depth v key) seen fate seen' :=
      fun seen fewer depth v key within => ih _ fewer seen depth key within rfl
    cases isRedacted : redacted options key with
    | true => exact ⟨_, _, .rests (turn_redacted isRedacted)⟩
    | false =>
      by_cases ends : Acc (CauseOf g) v
      · induction ends generalizing depth key with
        | intro v _ ihCause =>
          cases isTurn : turn g options depth seen v key with
          | rests out => exact ⟨_, _, .rests isTurn⟩
          | fails error => exact ⟨_, _, .fails isTurn⟩
          | follows output cause =>
            have isCause := turn_follows_cause isTurn
            obtain ⟨fate, seen', goes⟩ := ihCause cause isCause (depth + 1)
              (some (ascii "cause")) (isCause.within within) (redacted_cause options)
            exact ⟨_, _, .follows isTurn goes⟩
          | enters r parts finish =>
            obtain ⟨inside, allWithin⟩ := within_enters within isTurn
            have less := unseen_lt inside (turn_enters isTurn).2.2.1
            obtain ⟨fate, seen', goes⟩ := exists_goes_parts calls allWithin (hn ▸ less)
            exact ⟨_, _, .enters isTurn goes⟩
          | opens r type fields =>
            obtain ⟨inside, allWithin⟩ := within_opens within isTurn
            have less := unseen_lt inside (turn_opens isTurn).2.2.1
            obtain ⟨fate, seen', goes⟩ := exists_goes_properties calls allWithin (hn ▸ less)
            exact ⟨_, _, .opens isTurn goes⟩
      · exact ⟨_, _, .endless isRedacted ends⟩

/-- Every task goes somehow. -/
theorem exists_goes_task (engine : Engine) (options : RequiredOptions) {task : Task}
    (within : task.Within g) (seen : List Nat) :
    ∃ fate seen', Goes engine g options task seen fate seen' := by
  have calls : ∀ seen', unseen g seen' < unseen g seen + 1 → ∀ depth v key, v.Within g.size →
      ∃ fate seen'', Goes engine g options (.call depth v key) seen' fate seen'' :=
    fun seen' _ depth v key within => exists_goes engine options seen' depth key within
  cases task with
  | call depth v key => exact exists_goes engine options seen depth key within
  | parts depth parts => exact exists_goes_parts calls within (Nat.lt_succ_self _)
  | properties depth fields outline truncated =>
    exact exists_goes_properties calls within (Nat.lt_succ_self _)

end

end QuietStorage.Logger
