import Mathlib.Logic.Relation
import QuietStorage.Logger.Rendering

/-!
# Logger.Throws — what throws, and what catches it

An exception goes through to the call above (`Through`), but for the value of a property, which is tried
(`Tried`). A task throws exactly if something fails in it that is not caught (`throws_iff`).
-/

set_option autoImplicit false

namespace QuietStorage.Logger

open Lib Lib.Js Lib.Traversal

/-- A task, with the seen set at that time. -/
abbrev State := Task × List Nat

/-- A value that is logged, with the objects that it may refer to. -/
structure Input where
  graph : Graph
  value : Value
  within : value.Within graph.size

/-- The call that `sanitizeLogValue` makes. -/
def Input.state (input : Input) : State := (.call 0 input.value none, [])

section
variable (engine : Engine) (g : Graph) (options : RequiredOptions)

/-- **What is done inside of a task**, where an exception goes through. -/
inductive Through : State → State → Prop
  | follows {depth : Nat} {v : Value} {key : Option JsString} {seen : List Nat}
    {output : List (JsString × Output)} {cause : Value}
    (isTurn : turn g options depth seen v key = .follows output cause) :
    Through (.call depth v key, seen) (.call (depth + 1) cause (some (ascii "cause")), seen)
  | enters {depth : Nat} {v : Value} {key : Option JsString} {seen : List Nat} {r : Nat}
    {parts : List Part} {finish : List Output → Output}
    (isTurn : turn g options depth seen v key = .enters r parts finish) :
    Through (.call depth v key, seen) (.parts depth parts, r :: seen)
  | opens {depth : Nat} {v : Value} {key : Option JsString} {seen : List Nat} {r : Nat} {type : Value}
    {fields : List (JsString × Value)}
    (isTurn : turn g options depth seen v key = .opens r type fields) :
    Through (.call depth v key, seen) (openedTask options depth type fields, r :: seen)
  | first {depth : Nat} {v : Value} {key : Option JsString} {parts : List Part} {seen : List Nat} :
    Through (.parts depth (.value v key :: parts), seen) (.call (depth + 1) v key, seen)
  | parts {depth : Nat} {v : Value} {key : Option JsString} {parts : List Part} {seen seen' : List Nat}
    {prototype : Option (Option Chain)}
    (first : Goes engine g options (.call (depth + 1) v key) seen (.returns prototype) seen') :
    Through (.parts depth (.value v key :: parts), seen) (.parts depth parts, seen')
  | properties {depth : Nat} {key : JsString} {v : Value} {fields : List (JsString × Value)}
    {outline outline' : Outline} {truncated : Bool} {seen seen' : List Nat} {fate : Fate}
    (value : Goes engine g options (.call (depth + 1) v (some key)) seen fate seen')
    (assigned : outline.assign engine key fate.prototype = some outline') :
    Through (.properties depth ((key, v) :: fields) outline truncated, seen)
      (.properties depth fields outline' truncated, seen')

/-- The value of a property is tried: what it throws is caught. -/
inductive Tried : State → State → Prop
  | value {depth : Nat} {key : JsString} {v : Value} {fields : List (JsString × Value)}
    {outline : Outline} {truncated : Bool} {seen : List Nat} :
    Tried (.properties depth ((key, v) :: fields) outline truncated, seen)
      (.call (depth + 1) v (some key), seen)

/-- What is gone through, whatever is caught. -/
def GoneThrough : State → State → Prop :=
  Relation.ReflTransGen fun state state' => Through engine g options state state' ∨ Tried state state'

/-- **What fails by itself**: a Date without a valid time, and a record whose constructor has no name, or
none that can be printed where that is needed; an Error whose causes have no end; a key of a Map that
cannot be printed; and a property that cannot be assigned. -/
inductive Fails : State → Prop
  | call {depth : Nat} {v : Value} {key : Option JsString} {seen : List Nat} {error : Exception}
    (isTurn : turn g options depth seen v key = .fails error) : Fails (.call depth v key, seen)
  | endless {depth : Nat} {v : Value} {key : Option JsString} {seen : List Nat}
    (notRedacted : redacted options key = false) (endless : ¬Acc (CauseOf g) v) :
    Fails (.call depth v key, seen)
  | unprintable {depth : Nat} {error : Exception} {parts : List Part} {seen : List Nat} :
    Fails (.parts depth (.unprintable error :: parts), seen)
  | refused {depth : Nat} {key : JsString} {v : Value} {fields : List (JsString × Value)}
    {outline : Outline} {truncated : Bool} {seen : List Nat} (refused : outline.refuses key = true) :
    Fails (.properties depth ((key, v) :: fields) outline truncated, seen)

/-- **Something fails, and nothing catches it.** -/
def Throws (state : State) : Prop :=
  ∃ failing, Relation.ReflTransGen (Through engine g options) state failing ∧ Fails g options failing

end

section
variable {engine : Engine} {g : Graph} {options : RequiredOptions} {state state' : State}
  {seen' : List Nat} {fate : Fate}

theorem Through.within (through : Through engine g options state state') (within : state.1.Within g) :
    state'.1.Within g := by
  cases through with
  | follows isTurn => exact (turn_follows_cause isTurn).within within
  | enters isTurn => exact (within_enters within isTurn).2
  | opens isTurn => exact (within_opens within isTurn).2
  | first => exact within _ _ (.head _)
  | parts _ => exact fun v key mem => within v key (.tail _ mem)
  | properties _ _ => exact fun field mem => within field (.tail _ mem)

theorem Tried.within (tried : Tried state state') (within : state.1.Within g) : state'.1.Within g := by
  cases tried with
  | value => exact within _ (.head _)

theorem GoneThrough.within (reaches : GoneThrough engine g options state state')
    (within : state.1.Within g) : state'.1.Within g := by
  induction reaches with
  | refl => exact within
  | tail _ step ih => exact step.elim (fun through => through.within ih) fun tried => tried.within ih

/-- What fails throws. -/
theorem Fails.goes (fails : Fails g options state) (within : state.1.Within g) :
    ∃ seen', Goes engine g options state.1 state.2 .throws seen' := by
  cases fails with
  | call isTurn => exact ⟨_, .fails isTurn⟩
  | endless notRedacted endless => exact ⟨_, .endless notRedacted endless⟩
  | unprintable => exact ⟨_, .unprintable⟩
  | @refused depth key v fields outline truncated seen refused =>
    have inside : v.Within g.size := within _ (.head _)
    obtain ⟨fate, seen', value⟩ := exists_goes engine options seen (depth + 1) (some key) inside
    exact ⟨seen', .refused value refused⟩

/-- What throws inside throws. -/
theorem Through.goes (through : Through engine g options state state')
    (throws : ∃ seen', Goes engine g options state'.1 state'.2 .throws seen') :
    ∃ seen', Goes engine g options state.1 state.2 .throws seen' := by
  obtain ⟨seen', goes⟩ := throws
  cases through with
  | follows isTurn => exact ⟨_, .follows isTurn goes⟩
  | enters isTurn => exact ⟨_, .enters isTurn goes⟩
  | opens isTurn => exact ⟨_, .opens isTurn goes⟩
  | first => exact ⟨_, .partThrows goes⟩
  | parts first => exact ⟨_, .part first goes⟩
  | properties value assigned => exact ⟨_, .property value assigned goes⟩

theorem Throws.step (through : Through engine g options state state')
    (throws : Throws engine g options state') : Throws engine g options state := by
  obtain ⟨failing, reaches, fails⟩ := throws
  exact ⟨failing, .head through reaches, fails⟩

theorem Throws.of_goes {task : Task} {seen : List Nat}
    (goes : Goes engine g options task seen .throws seen') : Throws engine g options (task, seen) := by
  generalize isThrows : Fate.throws = fate at goes
  induction goes with
  | rests _ => cases isThrows
  | fails isTurn => exact ⟨_, .refl, .call isTurn⟩
  | endless notRedacted endless => exact ⟨_, .refl, .endless notRedacted endless⟩
  | @follows _ _ _ _ _ _ _ fate isTurn _ ih =>
    cases fate with
    | returns prototype => cases isThrows
    | throws => exact Throws.step (.follows isTurn) (ih rfl)
  | enters isTurn _ ih => exact Throws.step (.enters isTurn) (ih isThrows)
  | opens isTurn _ ih => exact Throws.step (.opens isTurn) (ih isThrows)
  | noParts => cases isThrows
  | part first _ _ ih => exact Throws.step (.parts first) (ih isThrows)
  | partThrows _ ih => exact Throws.step .first (ih rfl)
  | unprintable => exact ⟨_, .refl, .unprintable⟩
  | noProperties => cases isThrows
  | property value assigned _ _ ih => exact Throws.step (.properties value assigned) (ih isThrows)
  | refused _ refused _ => exact ⟨_, .refl, .refused refused⟩

/-- **A task throws** exactly if something fails that is not caught. -/
theorem throws_iff (within : state.1.Within g) :
    Throws engine g options state ↔ ∃ seen', Goes engine g options state.1 state.2 .throws seen' := by
  constructor
  · rintro ⟨failing, reaches, fails⟩
    induction reaches using Relation.ReflTransGen.head_induction_on with
    | refl => exact fails.goes within
    | head through _ ih => exact through.goes (ih (through.within within))
  · rintro ⟨seen', goes⟩
    exact Throws.of_goes goes

/-- It returns exactly if not. -/
theorem not_throws_iff (within : state.1.Within g) :
    ¬Throws engine g options state ↔
      ∃ prototype seen', Goes engine g options state.1 state.2 (.returns prototype) seen' := by
  rw [throws_iff within]
  constructor
  · intro notThrows
    obtain ⟨fate, seen', goes⟩ := exists_goes_task engine options within state.2
    cases fate with
    | returns prototype => exact ⟨prototype, seen', goes⟩
    | throws => exact absurd ⟨seen', goes⟩ notThrows
  · rintro ⟨prototype, seen', goes⟩ ⟨seen'', goes'⟩
    cases (goes.unique goes').1

end

end QuietStorage.Logger
