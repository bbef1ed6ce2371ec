import QuietStorage.Logger.Throws

/-!
# Logger.Returns — the sanitizer that finishes

For a value and its options the sanitizer returns exactly if nothing that it goes through fails where
nothing catches it (`returns_iff`): no Date without a valid time, no record without the name of a
constructor, or with one that cannot be printed where it is, no Error whose causes go on for ever, no key
of a Map that cannot be printed, and no property that binary data among the prototypes is in the way of.
What the value of a property throws is caught.

Returning is meant for every stack that is large enough.
-/

set_option autoImplicit false

namespace QuietStorage.Logger

open Lib Lib.Js Lib.Traversal Filter

/-- **What is expected**: the sanitizer returns. -/
def Returns (engine : Engine) (input : Input) (options : LogSanitizerOptions) : Prop :=
  ∀ᶠ stack in atTop, ∃ out, sanitizeLogValue engine input.graph stack input.value options = .ok out

/-- **The sanitizer returns** exactly if nothing fails that is not caught. -/
theorem returns_iff (engine : Engine) (input : Input) (options : LogSanitizerOptions) :
    Returns engine input options ↔ ¬Throws engine input.graph options.required input.state := by
  have within : input.state.1.Within input.graph := input.within
  constructor
  · intro returns throws
    obtain ⟨seen', goes⟩ := (throws_iff within).mp throws
    obtain ⟨result, isFate, ended⟩ := goes.ends
    obtain ⟨stack, ⟨out, isOk⟩, ran, _⟩ := (returns.and ended).exists
    cases (congrArg Prod.fst ran).symm.trans isOk
    cases isFate
  · intro notThrows
    obtain ⟨prototype, seen', goes⟩ := (not_throws_iff within).mp notThrows
    obtain ⟨result, isFate, ended⟩ := goes.ends
    cases result with
    | error error => cases isFate
    | ok out => exact ended.mono fun stack ⟨ran, _⟩ => ⟨out, congrArg Prod.fst ran⟩

/-- A record without a prototype, one whose `constructor` is `null`, an Error that is its own cause, and a
record with binary data at `__proto__` and then a `byteLength`. -/
def throwingGraph : Graph where
  node
    | 0 => .record none []
    | 1 => .record (some (ascii "Object")) [(ascii "constructor", .null)]
    | 2 => .error (ascii "Error") (ascii "Error") (ascii "again") none (.ref 2)
    | 3 =>
      .record (some (ascii "Object"))
        [(ascii "__proto__", .ref 4), (ascii "byteLength", .number (.ofNat 5))]
    | _ => .binary .buffer [1, 2] []
  size := 5
  closed := by decide
  counted := by decide
  distinct := by decide
  uncalled := by decide

/-- What is its own cause has causes without an end. -/
theorem not_acc_of_self {g : Graph} {v : Value} (self : CauseOf g v v) : ¬Acc (CauseOf g) v := by
  intro acc
  induction acc with
  | intro v _ ih => exact ih v self self

def throwingInput (r : Fin 4) : Input where
  graph := throwingGraph
  value := .ref r
  within := r.2.trans (by decide)

/-- None of these is ever rendered, if binary data is not summarized. -/
theorem null_prototype_throws :
    (∀ r stack, ∃ error,
      sanitizeLogValue .v8 throwingGraph (stack + 2) (throwingInput r).value
        { summarizeBinary := some false } = .error error) ∧
    ∀ r, ¬Returns .v8 (throwingInput r) { summarizeBinary := some false } := by
  have throws : ∀ (r : Fin 4) stack, ∃ error,
      sanitizeLogValue .v8 throwingGraph (stack + 2) (.ref r) { summarizeBinary := some false } =
        .error error := by
    intro r stack
    match r with
    | 0 => exact ⟨.ofUndefined, rfl⟩
    | 1 => exact ⟨.ofNull, rfl⟩
    | 2 =>
      have endless : ¬Acc (CauseOf throwingGraph) (.ref 2) := not_acc_of_self (.error rfl rfl)
      exact ⟨_, congrArg Prod.fst
        (sanitizeValue_endless addDelete (stack + 2) endless (redacted_none _))⟩
    | 3 => exact ⟨.readOnly .byteLength, rfl⟩
  refine ⟨throws, fun r returns => ?_⟩
  obtain ⟨stack, out, isOk⟩ := ((tendsto_add_atTop_nat 2).eventually returns).exists
  obtain ⟨error, isError⟩ := throws r stack
  cases isOk.symm.trans isError

end QuietStorage.Logger
