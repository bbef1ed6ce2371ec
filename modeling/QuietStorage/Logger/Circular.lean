import QuietStorage.Logger.Throws

/-!
# Logger.Circular — the marker of back references

**What it is for.** `[Circular]` is to stand for a container exactly where it is one of its own
ancestors. `renderPath` says so: it is the sanitizer with a list that is the path from the root, however
the parts of a container end.

**When it does** (`marksBackReferences_iff`). A container that throws stays in the seen set, and is then
taken for an ancestor wherever else it stands. So of a value that is logged the sanitizer marks back
references, and nothing else, exactly if no container that it goes through throws
(`NothingThrownWithin`). A container that is left without a trace has returned, and so has everything
that it goes through left the seen set as it was (`settled_step`).
-/

set_option autoImplicit false

namespace QuietStorage.Logger

open Lib Lib.Js Lib.Traversal Filter

/-- The inside of a container, not a call. -/
def Task.Inner : Task → Prop
  | .call _ _ _ => False
  | .parts _ _ | .properties _ _ _ _ => True

section
variable (engine : Engine) (input : Input) (options : LogSanitizerOptions)

/-- The rendering by the path: a container is on the list while its own parts are rendered. -/
def renderPath (stack : Nat) : Sanitizing Output :=
  sanitizeValue engine input.graph onPath options.required stack 0 input.value none

/-- **What is expected**: the sanitizer renders the value as the path says, and the seen set is afterwards
what it was before. -/
def MarksBackReferences : Prop :=
  ∀ᶠ stack in atTop,
    sanitizeLogValue engine input.graph stack input.value options =
      ((renderPath engine input options stack).walk []).1 ∧
    (sanitizeValue engine input.graph addDelete options.required stack 0 input.value none).Keeps []

/-- **The condition**: no container that is gone through throws. -/
def NothingThrownWithin : Prop :=
  ∀ state, GoneThrough engine input.graph options.required input.state state → state.1.Inner →
    ¬Throws engine input.graph options.required state

end

section
variable {engine : Engine} {g : Graph} {options : RequiredOptions} {state state' : State}

/-- The task leaves the seen set as it was, and does not throw if it is inside of a container. -/
def Settled (engine : Engine) (g : Graph) (options : RequiredOptions) (state : State) : Prop :=
  ∃ fate, Goes engine g options state.1 state.2 fate state.2 ∧ (state.1.Inner → fate ≠ .throws)

theorem Settled.of_goes {fate : Fate} {seen' : List Nat}
    (settled : Settled engine g options state)
    (goes : Goes engine g options state.1 state.2 fate seen') :
    seen' = state.2 ∧ (state.1.Inner → fate ≠ .throws) := by
  obtain ⟨fate', goes', inner⟩ := settled
  obtain ⟨rfl, rfl⟩ := goes'.unique goes
  exact ⟨rfl, inner⟩

/-- What is done inside of a container that returns. -/
theorem settled_enter {task : Task} {seen : List Nat} {r : Nat} {fate : Fate} {seen' : List Nat}
    (goes : Goes engine g options task (r :: seen) fate seen') (same : fate.leave r seen' = seen) :
    Settled engine g options (task, r :: seen) := by
  obtain ⟨returns, rfl⟩ := returns_of_leave goes.grows same
  exact ⟨fate, goes, fun _ => returns⟩

/-- **What is gone through leaves the seen set as it was**, where the whole does. -/
theorem settled_step (within : state.1.Within g) (settled : Settled engine g options state)
    (step : Through engine g options state state' ∨ Tried state state') :
    Settled engine g options state' := by
  have inside : state'.1.Within g :=
    step.elim (fun through => through.within within) fun tried => tried.within within
  obtain ⟨fate, seen', goes⟩ := exists_goes_task engine options inside state'.2
  rcases step with through | tried
  · cases through with
    | follows isTurn =>
      obtain ⟨rfl, _⟩ := settled.of_goes (.follows isTurn goes)
      exact ⟨fate, goes, nofun⟩
    | enters isTurn =>
      exact settled_enter goes (settled.of_goes (.enters isTurn goes)).1
    | opens isTurn =>
      exact settled_enter goes (settled.of_goes (.opens isTurn goes)).1
    | @first depth v key parts seen =>
      cases fate with
      | throws => exact absurd rfl ((settled.of_goes (.partThrows goes)).2 trivial)
      | returns prototype =>
        have rest : Task.Within g (.parts depth parts) := fun v key mem => within v key (.tail _ mem)
        obtain ⟨fate', seen'', goes'⟩ := exists_goes_task engine options rest seen'
        have same := (settled.of_goes (.part goes goes')).1
        obtain rfl : seen' = seen := goes.grows.antisymm (same ▸ goes'.grows)
        exact ⟨_, goes, nofun⟩
    | @parts _ _ _ _ seen seen₁ _ first =>
      obtain ⟨same, inner⟩ := settled.of_goes (.part first goes)
      dsimp only at same
      subst same
      obtain rfl : seen₁ = seen' := first.grows.antisymm goes.grows
      exact ⟨fate, goes, fun _ => inner trivial⟩
    | @properties _ _ _ _ _ _ _ seen seen₁ _ value assigned =>
      obtain ⟨same, inner⟩ := settled.of_goes (.property value assigned goes)
      dsimp only at same
      subst same
      obtain rfl : seen₁ = seen' := value.grows.antisymm goes.grows
      exact ⟨fate, goes, fun _ => inner trivial⟩
  · cases tried with
    | @value depth key v fields outline truncated seen =>
      cases isAssigned : outline.assign engine key fate.prototype with
      | none =>
        have throws : Goes engine g options (.properties depth ((key, v) :: fields) outline truncated) seen
            .throws seen' := .refused goes (assign_eq_none.mp isAssigned)
        exact absurd rfl ((settled.of_goes throws).2 trivial)
      | some outline' =>
        have rest : Task.Within g (.properties depth fields outline' truncated) :=
          fun field mem => within field (.tail _ mem)
        obtain ⟨fate', seen'', goes'⟩ := exists_goes_task engine options rest seen'
        have same := (settled.of_goes (.property goes isAssigned goes')).1
        obtain rfl : seen' = seen := goes.grows.antisymm (same ▸ goes'.grows)
        exact ⟨_, goes, nofun⟩

theorem settled_goneThrough (within : state.1.Within g) (settled : Settled engine g options state)
    (reaches : GoneThrough engine g options state state') : Settled engine g options state' := by
  induction reaches using Relation.ReflTransGen.head_induction_on with
  | refl => exact settled
  | head step _ ih =>
    refine ih ?_ (settled_step within settled step)
    exact step.elim (fun through => through.within within) fun tried => tried.within within

/-- Where no container throws, the seen set is left as it was. -/
theorem Goes.keeps {task : Task} {seen seen' : List Nat} {fate : Fate}
    (goes : Goes engine g options task seen fate seen')
    (nothing : ∀ state, GoneThrough engine g options (task, seen) state → state.1.Inner →
      ¬Throws engine g options state) : seen' = seen := by
  induction goes with
  | rests _ => rfl
  | fails _ => rfl
  | endless _ _ => rfl
  | follows isTurn _ ih =>
    exact ih fun state reaches => nothing state (.head (.inl (.follows isTurn)) reaches)
  | @enters _ _ _ _ _ _ _ _ fate isTurn goes ih =>
    have inside := ih fun state reaches => nothing state (.head (.inl (.enters isTurn)) reaches)
    have returns := nothing _ (.single (.inl (.enters isTurn))) trivial
    cases fate with
    | throws => exact absurd (Throws.of_goes goes) returns
    | returns prototype => rw [inside, Fate.leave, List.erase_cons_head]
  | @opens _ _ _ _ _ _ _ _ fate isTurn goes ih =>
    have inside := ih fun state reaches => nothing state (.head (.inl (.opens isTurn)) reaches)
    have returns := nothing _ (.single (.inl (.opens isTurn))) trivial
    cases fate with
    | throws => exact absurd (Throws.of_goes goes) returns
    | returns prototype => rw [inside, Fate.leave, List.erase_cons_head]
  | noParts => rfl
  | part first _ ihFirst ihRest =>
    have kept := ihFirst fun state reaches => nothing state (.head (.inl .first) reaches)
    have keptRest := ihRest fun state reaches => nothing state (.head (.inl (.parts first)) reaches)
    exact keptRest.trans kept
  | partThrows _ ih => exact ih fun state reaches => nothing state (.head (.inl .first) reaches)
  | unprintable => rfl
  | noProperties => rfl
  | property value assigned _ ihValue ihRest =>
    have kept := ihValue fun state reaches => nothing state (.head (.inr .value) reaches)
    have keptRest := ihRest fun state reaches =>
      nothing state (.head (.inl (.properties value assigned)) reaches)
    exact keptRest.trans kept
  | refused _ _ ih => exact ih fun state reaches => nothing state (.head (.inr .value) reaches)

end

/-- **`[Circular]` marks back references**, and the seen set is left as it was, exactly if no container
that is gone through throws. -/
theorem marksBackReferences_iff (engine : Engine) (input : Input) (options : LogSanitizerOptions) :
    MarksBackReferences engine input options ↔ NothingThrownWithin engine input options := by
  obtain ⟨fate, seen', goes⟩ := exists_goes engine options.required [] 0 none input.within
  obtain ⟨result, isFate, ended⟩ := goes.ends
  constructor
  · intro marks state reaches inner throws
    obtain ⟨stack, ⟨_, keeps⟩, ran, _⟩ := (marks.and ended).exists
    rw [Keeps, ran] at keeps
    dsimp only at keeps
    subst keeps
    have root : Settled engine input.graph options.required input.state := ⟨fate, goes, nofun⟩
    have start : input.state.1.Within input.graph := input.within
    have settled := settled_goneThrough start root reaches
    have within := reaches.within input.within
    obtain ⟨seen'', goes'⟩ := (throws_iff within).mp throws
    exact (settled.of_goes goes').2 inner rfl
  · intro nothing
    obtain rfl : seen' = [] := goes.keeps nothing
    filter_upwards [ended] with stack ⟨ran, path⟩
    refine ⟨?_, ?_⟩
    · rw [sanitizeLogValue, ran, renderPath, path rfl]
    · rw [Keeps, ran]

/-- `{ a: items, b: items }`, where `items` is an array with one record that has no prototype. -/
def sharedInput : Input where
  graph :=
    { node
        | 0 => .record (some (ascii "Object")) [(ascii "a", .ref 1), (ascii "b", .ref 1)]
        | 1 => .array [.ref 2]
        | _ => .record none []
      size := 3
      closed := by decide
      counted := by decide
      distinct := by decide
      uncalled := by decide }
  value := .ref 0
  within := by decide

/-- The array is no ancestor of itself, and is marked where it stands for the second time. -/
theorem shared_array_marked :
    (∀ stack, sanitizeLogValue .v8 sharedInput.graph (stack + 4) (.ref 0) = .ok (.plain
      [(ascii "a", unserializable .v8 .ofUndefined), (ascii "b", .array [circular])])) ∧
    (∀ stack, ((renderPath .v8 sharedInput {} (stack + 4)).walk []).1 = .ok (.plain
      [(ascii "a", unserializable .v8 .ofUndefined), (ascii "b", unserializable .v8 .ofUndefined)])) ∧
    ¬MarksBackReferences .v8 sharedInput {} := by
  have marked : ∀ stack, sanitizeLogValue .v8 sharedInput.graph (stack + 4) (.ref 0) = .ok (.plain
      [(ascii "a", unserializable .v8 .ofUndefined), (ascii "b", .array [circular])]) := fun stack => rfl
  have unmarked : ∀ stack, ((renderPath .v8 sharedInput {} (stack + 4)).walk []).1 = .ok (.plain
      [(ascii "a", unserializable .v8 .ofUndefined), (ascii "b", unserializable .v8 .ofUndefined)]) :=
    fun stack => rfl
  refine ⟨marked, unmarked, fun marks => ?_⟩
  obtain ⟨stack, same, _⟩ := ((tendsto_add_atTop_nat 4).eventually marks).exists
  rw [unmarked] at same
  have same := (marked stack).symm.trans same
  simp [Output.plain, circular, Output.text, unserializable] at same

end QuietStorage.Logger
