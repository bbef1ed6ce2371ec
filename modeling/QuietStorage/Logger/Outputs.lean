import QuietStorage.Logger.Throws

/-!
# Logger.Outputs — what the sanitizer returns

The value of a property is tried, and what comes of it may be dropped again (`Kept`). `Shown` are the
calls from which something comes that stands in the output: none if the call for the whole value throws.
What every turn preserves holds of the output, if the turns are as they should be at the calls that are
shown (`Preserved.output`).
-/

set_option autoImplicit false

namespace QuietStorage.Logger

open Lib Lib.Js Lib.Traversal Filter

/-! ## What is shown -/

/-- What is assigned now stays in the record: it can be a prototype if it is assigned to `__proto__`, and
otherwise it is not ignored, and not written again with the number of keys. -/
def Outline.keeps (engine : Engine) (outline : Outline) (truncated : Bool) (key : JsString)
    (prototype : Option (Option Chain)) : Bool :=
  if key = ascii "__proto__" then prototype.isSome
  else !outline.ignores engine key && !(truncated && key == ascii "__truncatedKeys")

section
variable (engine : Engine) (g : Graph) (options : RequiredOptions)

/-- The value of a property is tried and does not throw, and what comes of it stays in the record. -/
inductive Kept : State → State → Prop
  | value {depth : Nat} {key : JsString} {v : Value} {fields : List (JsString × Value)}
    {outline : Outline} {truncated : Bool} {seen seen' : List Nat} {prototype : Option (Option Chain)}
    (returned : Goes engine g options (.call (depth + 1) v (some key)) seen (.returns prototype) seen')
    (kept : outline.keeps engine truncated key prototype = true) :
    Kept (.properties depth ((key, v) :: fields) outline truncated, seen)
      (.call (depth + 1) v (some key), seen)

/-- What is done inside of a task, and shows in what it returns. -/
def ShownFrom : State → State → Prop :=
  Relation.ReflTransGen fun state state' =>
    Through engine g options state state' ∨ Kept engine g options state state'

end

/-- **What is shown** of a value that is logged: nothing if something fails that is not caught. -/
def Shown (engine : Engine) (input : Input) (options : RequiredOptions) (state : State) : Prop :=
  ¬Throws engine input.graph options input.state ∧
    ShownFrom engine input.graph options input.state state

section
variable {engine : Engine} {g : Graph} {options : RequiredOptions} {state state' : State}

theorem Kept.tried (kept : Kept engine g options state state') : Tried state state' := by
  cases kept with
  | value _ _ => exact .value

theorem ShownFrom.goneThrough (shown : ShownFrom engine g options state state') :
    GoneThrough engine g options state state' :=
  Relation.ReflTransGen.mono (fun _ _ step => step.imp_right Kept.tried) _ _ shown

end

/-- What is logged is rendered, on every large enough stack. -/
theorem eventually_sanitizeLogValue (engine : Engine) (input : Input) (options : LogSanitizerOptions) :
    ∀ᶠ stack in atTop, sanitizeLogValue engine input.graph stack input.value options =
      ((rendering engine input.graph options.required 0 input.value none).walk []).1 :=
  (tends_rendering 0 none input.within []).mono fun _ same => congrArg Prod.fst same

/-! ## What every turn preserves -/

section
variable (engine : Engine) (g : Graph) (options : RequiredOptions)

/-- A record is filled with its type, if no key has that name, with good outputs under its keys, and with
a number. -/
structure Filled (Good : Output → Prop) (type : Value) (keys : List JsString) (filling : Filling) :
    Prop where
  prototype : ∀ out ∈ filling.prototype, Good out
  field : ∀ field ∈ filling.fields,
    field = (ascii "type", .value type) ∧ ascii "type" ∉ keys ∨
      (∃ n, field = (ascii "__truncatedKeys", .count n)) ∨ field.1 ∈ keys ∧ Good field.2
  few : filling.fields.length ≤ keys.length + 2

/-- **Every turn at such a state preserves that outputs are good**, at each depth. -/
structure Preserved (Ok : State → Prop) (Good : Nat → Output → Prop) : Prop where
  rests {depth : Nat} {v : Value} {key : Option JsString} {seen : List Nat} {out : Output}
    (within : v.Within g.size) (ok : Ok (.call depth v key, seen))
    (isTurn : turn g options depth seen v key = .rests out) : Good depth out
  follows {depth : Nat} {v : Value} {key : Option JsString} {seen : List Nat}
    {output : List (JsString × Output)} {cause : Value} {out : Output} (within : v.Within g.size)
    (ok : Ok (.call depth v key, seen))
    (isTurn : turn g options depth seen v key = .follows output cause) (good : Good (depth + 1) out) :
    Good depth (.plain (output ++ [(ascii "cause", out)]))
  enters {depth : Nat} {v : Value} {key : Option JsString} {seen : List Nat} {r : Nat}
    {parts : List Part} {finish : List Output → Output} {outs : List Output}
    (within : v.Within g.size) (ok : Ok (.call depth v key, seen))
    (isTurn : turn g options depth seen v key = .enters r parts finish)
    (length : outs.length = parts.length) (good : ∀ out ∈ outs, Good (depth + 1) out) :
    Good depth (finish outs)
  opens {depth : Nat} {v : Value} {key : Option JsString} {seen : List Nat} {r : Nat} {type : Value}
    {fields : List (JsString × Value)} {filling : Filling} (within : v.Within g.size)
    (ok : Ok (.call depth v key, seen))
    (isTurn : turn g options depth seen v key = .opens r type fields)
    (filled : Filled (Good (depth + 1)) type ((visible options MAX_OBJECT_KEYS fields).map Prod.fst)
      filling) : Good depth filling.output
  caught (depth : Nat) (error : Exception) : Good depth (unserializable engine error)

/-- What was assigned to a record is good, but for what is written again with the number of keys. -/
structure FilledFrom (Good : Output → Prop) (filling : Filling) (keys : List JsString)
    (truncated : Bool) (filling' : Filling) : Prop where
  prototype : ∀ out ∈ filling'.prototype, out ∈ filling.prototype ∨ Good out
  field : ∀ field ∈ filling'.fields,
    field ∈ filling.fields ∧ (field.1 ≠ ascii "__proto__" → field.1 ∉ keys) ∨
      field.1 ∈ keys ∧ (Good field.2 ∨ truncated = true ∧ field.1 = ascii "__truncatedKeys")
  few : filling'.fields.length ≤ filling.fields.length + keys.length

/-- What a task comes to is good. -/
def TaskGood (Good : Nat → Output → Prop) : Task → List Nat → Prop
  | .call depth v key, seen => ∀ out seen',
    (rendering engine g options depth v key).walk seen = (.ok out, seen') → Good depth out
  | .parts depth parts, seen => ∀ outs seen',
    (parts.mapM (sanitizePart (rendering engine g options) depth)).walk seen = (.ok outs, seen') →
      ∀ out ∈ outs, Good (depth + 1) out
  | .properties depth fields outline truncated, seen => ∀ filling : Filling, filling.outline = outline →
    ∀ filling' seen', (fields.foldlM (sanitizeProperty engine (rendering engine g options) depth)
      filling).walk seen = (.ok filling', seen') →
        FilledFrom (Good (depth + 1)) filling (fields.map Prod.fst) truncated filling'

end

section
variable {engine : Engine} {g : Graph} {options : RequiredOptions} {depth : Nat}

theorem FilledFrom.refl (Good : Output → Prop) (filling : Filling) (truncated : Bool) :
    FilledFrom Good filling [] truncated filling :=
  ⟨fun _ above => .inl above, fun _ mem => .inl ⟨mem, fun _ => List.not_mem_nil⟩, le_rfl⟩

/-- One property more. -/
theorem FilledFrom.cons {Good : Output → Prop} {filling filling₁ filling' : Filling} {key : JsString}
    {keys : List JsString} {truncated : Bool} {out : Output}
    (assigned : Assigned engine filling key out filling₁)
    (good : (filling.outline).keeps engine truncated key out.asPrototype = true → Good out)
    (rest : FilledFrom Good filling₁ keys truncated filling') :
    FilledFrom Good filling (key :: keys) truncated filling' := by
  refine ⟨fun out' above => ?_, fun field mem => ?_, ?_⟩
  · rcases rest.prototype out' above with above | isGood
    · cases assigned with
      | prototype isPrototype =>
        cases above
        refine .inr (good ?_)
        rw [Outline.keeps, if_pos rfl, Output.asPrototype, isPrototype, if_pos rfl, Option.isSome_some]
      | _ => exact .inl above
    · exact .inr isGood
  · rcases rest.field field mem with ⟨mem, unwritten⟩ | ⟨mem, isGood⟩
    · rcases assigned.mem mem with ⟨rfl, taken, notProto⟩ | ⟨mem, ne⟩
      · refine .inr ⟨List.mem_cons_self .., ?_⟩
        by_cases counted : truncated = true ∧ key = ascii "__truncatedKeys"
        · exact .inr counted
        · refine .inl (good ?_)
          rw [Outline.keeps, if_neg notProto, taken]
          simpa [imp_iff_not_or] using counted
      · refine .inl ⟨mem, fun notProto memKeys => ?_⟩
        rcases List.mem_cons.mp memKeys with isKey | memKeys
        · exact ne notProto isKey.symm
        · exact unwritten notProto memKeys
    · exact .inr ⟨List.mem_cons_of_mem _ mem, isGood⟩
  · have first := assigned.length_le
    have few := rest.few
    rw [List.length_cons]
    omega

/-- A record is filled, and its keys are counted. -/
theorem FilledFrom.counted {Good : Output → Prop} {type : Value} {keys : List JsString} {count : Nat}
    {filling filling' : Filling}
    (filled : FilledFrom Good (typedFilling type) keys
      (options.sanitizeValues && decide (MAX_OBJECT_KEYS < count)) filling)
    (isCounted : countTruncated engine options filling count = .ok filling') :
    Filled Good type keys filling' := by
  have typed : ∀ field ∈ filling.fields, field ∈ (typedFilling type).fields ∧
      (field.1 ≠ ascii "__proto__" → field.1 ∉ keys) →
        field = (ascii "type", .value type) ∧ ascii "type" ∉ keys := by
    rintro field _ ⟨mem, unwritten⟩
    have notProto : ascii "type" ≠ ascii "__proto__" := by decide
    obtain rfl := mem_typedFilling mem
    exact ⟨rfl, unwritten notProto⟩
  have few : filling.fields.length ≤ keys.length + 1 := by
    have one := length_typedFilling type
    have all := filled.few
    omega
  have above : ∀ out ∈ filling.prototype, Good out :=
    fun out above => (filled.prototype out above).resolve_left nofun
  unfold countTruncated at isCounted
  split at isCounted
  · next truncated =>
    rw [truncated] at filled
    have assigned := assign_spec isCounted
    have notProto : ascii "__truncatedKeys" ≠ ascii "__proto__" := by decide
    refine ⟨?_, fun field mem => ?_, ?_⟩
    · generalize ascii "__truncatedKeys" = key at assigned notProto
      cases assigned with
      | prototype _ => exact absurd rfl notProto
      | _ => exact above
    · rcases assigned.mem mem with ⟨isCount, _⟩ | ⟨mem, ne⟩
      · exact .inr (.inl ⟨_, isCount⟩)
      · rcases filled.field field mem with old | ⟨memKeys, isGood | ⟨_, isCount⟩⟩
        · exact .inl (typed field mem old)
        · exact .inr (.inr ⟨memKeys, isGood⟩)
        · exact absurd isCount.symm (ne (isCount ▸ notProto))
    · have one := assigned.length_le
      omega
  · next untruncated =>
    rw [Bool.eq_false_iff.mpr untruncated] at filled
    cases isCounted
    refine ⟨above, fun field mem => ?_, by omega⟩
    rcases filled.field field mem with old | ⟨memKeys, isGood | ⟨isTruncated, _⟩⟩
    · exact .inl (typed field mem old)
    · exact .inr (.inr ⟨memKeys, isGood⟩)
    · cases isTruncated

/-- **What every turn preserves holds of what a task comes to**, if the turns are as they should be at
all calls that are shown. -/
theorem Preserved.taskGood {Ok : State → Prop} {Good : Nat → Output → Prop}
    (preserved : Preserved engine g options Ok Good) {task : Task} {seen seen' : List Nat} {fate : Fate}
    (goes : Goes engine g options task seen fate seen') (within : task.Within g)
    (ok : ∀ state, ShownFrom engine g options (task, seen) state → Ok state) :
    TaskGood engine g options Good task seen := by
  induction goes with
  | rests isTurn =>
    intro out seen' ran
    rw [rendering_step within, isTurn] at ran
    cases ran
    exact preserved.rests within (ok _ .refl) isTurn
  | fails isTurn =>
    intro out seen' ran
    rw [rendering_step within, isTurn] at ran
    cases ran
  | endless notRedacted endless =>
    intro out seen' ran
    obtain ⟨result, isFate, ran'⟩ := (Goes.endless notRedacted endless).renders within
    obtain ⟨rfl, _⟩ := Prod.mk.inj (ran'.symm.trans ran)
    cases isFate
  | follows isTurn _ ih =>
    intro out seen' ran
    have inside := (turn_follows_cause isTurn).within within
    have good := ih inside fun state reaches => ok state (.head (.inl (.follows isTurn)) reaches)
    obtain ⟨sanitized, ranCause, rfl⟩ := rendering_follows within isTurn ran
    exact preserved.follows within (ok _ .refl) isTurn (good _ _ ranCause)
  | enters isTurn _ ih =>
    intro out seen' ran
    obtain ⟨_, inside⟩ := within_enters within isTurn
    have good := ih inside fun state reaches => ok state (.head (.inl (.enters isTurn)) reaches)
    obtain ⟨outs, seen₁, ranAll, rfl⟩ := rendering_enters within isTurn ran
    exact preserved.enters within (ok _ .refl) isTurn (length_mapM ranAll) (good _ _ ranAll)
  | opens isTurn _ ih =>
    intro out seen' ran
    obtain ⟨_, inside⟩ := within_opens within isTurn
    have good := ih inside fun state reaches => ok state (.head (.inl (.opens isTurn)) reaches)
    obtain ⟨filling, filling', seen₁, ranAll, isCounted, rfl⟩ := rendering_opens within isTurn ran
    have filled := (good _ rfl _ _ ranAll).counted isCounted
    exact preserved.opens within (ok _ .refl) isTurn filled
  | noParts =>
    intro outs seen' ran
    cases ran
    exact nofun
  | part first _ ihFirst ihRest =>
    intro outs seen' ran
    have insideFirst := within _ _ (.head _)
    have good := ihFirst insideFirst fun state reaches => ok state (.head (.inl .first) reaches)
    have goodRest := ihRest (fun v key mem => within v key (.tail _ mem)) fun state reaches =>
      ok state (.head (.inl (.parts first)) reaches)
    obtain ⟨result, _, ranGoes⟩ := first.renders insideFirst
    obtain ⟨out, seen₁, rest, ranFirst, ranRest, rfl⟩ := mapM_cons_eq_ok.mp ran
    obtain ⟨rfl, rfl⟩ := Prod.mk.inj (ranGoes.symm.trans ranFirst)
    exact List.forall_mem_cons.mpr ⟨good _ _ ranFirst, goodRest _ _ ranRest⟩
  | partThrows first _ =>
    intro outs seen' ran
    obtain ⟨result, isFate, ranGoes⟩ := first.renders (within _ _ (.head _))
    obtain ⟨out, seen₁, rest, ranFirst, _⟩ := mapM_cons_eq_ok.mp ran
    obtain ⟨rfl, _⟩ := Prod.mk.inj (ranGoes.symm.trans ranFirst)
    cases isFate
  | unprintable =>
    intro outs seen' ran
    obtain ⟨out, seen₁, rest, ranFirst, _⟩ := mapM_cons_eq_ok.mp ran
    cases ranFirst
  | noProperties =>
    intro filling _ filling' seen' ran
    cases ran
    exact .refl _ filling _
  | @property depth key v fields outline _ _ _ _ _ fate _ value assigned _ ihValue ihRest =>
    rintro filling rfl filling' seen' ran
    have inside := within _ (.head _)
    obtain ⟨result, filling₁, rfl, ranValue, isAssigned, ranRest⟩ := value.filled inside ran
    have outlined := outline_assign_ok isAssigned
    rw [asPrototype_assignedOutput, assigned] at outlined
    have rest := ihRest (fun field mem => within field (.tail _ mem))
      (fun state reaches => ok state (.head (.inl (.properties value assigned)) reaches))
      filling₁ (Option.some.inj outlined).symm filling' seen' ranRest
    refine FilledFrom.cons (assign_spec isAssigned) (fun kept => ?_) rest
    rw [asPrototype_assignedOutput] at kept
    -- What throws is a text, and what returns is shown.
    cases result with
    | error error => exact preserved.caught (depth + 1) error
    | ok out =>
      exact ihValue inside (fun state reaches => ok state (.head (.inr (.value value kept)) reaches))
        out _ ranValue
  | refused value refused _ =>
    rintro filling rfl filling' seen' ran
    obtain ⟨result, filling₁, _, _, isAssigned, _⟩ := value.filled (within _ (.head _)) ran
    obtain ⟨error, isError⟩ := assign_error_of_refuses engine refused (assignedOutput engine result)
    cases isError.symm.trans isAssigned

/-- The same for the whole value. -/
theorem Preserved.output {input : Input} {Ok : State → Prop} {Good : Nat → Output → Prop}
    (preserved : Preserved engine input.graph options Ok Good)
    (ok : ∀ state, Shown engine input options state → Ok state) {out : Output}
    (returned : ((rendering engine input.graph options 0 input.value none).walk []).1 = .ok out) :
    Good 0 out := by
  have within : input.state.1.Within input.graph := input.within
  obtain ⟨fate, seen', goes⟩ := exists_goes engine options [] 0 none input.within
  have notThrows : ¬Throws engine input.graph options input.state := by
    rw [throws_iff within]
    rintro ⟨seen'', throws⟩
    obtain ⟨result, isFate, ran⟩ := throws.renders input.within
    obtain rfl := (congrArg Prod.fst ran).symm.trans returned
    cases isFate
  exact preserved.taskGood goes within (fun state reaches => ok state ⟨notThrows, reaches⟩) out _
    (Prod.ext returned rfl)

/-! ## Chains of prototypes -/

theorem chain_finish {node : Node} {marker limit : Output} {parts : List Part}
    {finish : List Output → Output} (container : Container g options node marker limit parts finish)
    (outs : List Output) :
    marker.chain = none ∧ limit.chain = none ∧ (finish outs).chain = none := by
  cases container with
  | _ => exact ⟨rfl, rfl, rfl⟩

theorem chain_rests (on : options.summarizeBinary = true) {v : Value} {key : Option JsString}
    {seen : List Nat} {out : Output} (isTurn : turn g options depth seen v key = .rests out) :
    out.chain = none := by
  have spec : CallTurn g options depth seen v key (turn g options depth seen v key) := turn_spec v key
  rw [isTurn] at spec
  cases spec with
  | redacted _ => rfl
  | primitive _ isPrimitive =>
    cases v with
    | ref r => cases isPrimitive
    | _ =>
      cases isPrimitive
      rfl
  | @object r _ _ _ isNode =>
    generalize g.node r = node at isNode
    cases isNode with
    | binary kind bytes text =>
      unfold describeBinary
      rw [if_pos on]
      cases kind with
      | _ => rfl
    | seen container _ => exact (chain_finish container []).1
    | deep container _ _ => exact (chain_finish container []).2.1
    | buffer _ =>
      rw [describeSerializedBuffer, if_pos on]
      rfl
    | _ => rfl

/-- Where binary data is summarized no chain of prototypes ends in it. -/
theorem preserved_chain (on : options.summarizeBinary = true) :
    Preserved engine g options (fun _ => True) fun _ out => out.chain = none where
  rests _ _ isTurn := chain_rests on isTurn
  follows _ _ _ _ := rfl
  enters _ _ isTurn _ _ := by
    obtain ⟨_, _, _, _, _, _, container⟩ := turn_enters isTurn
    exact (chain_finish container _).2.2
  opens {_ _ _ _ _ _ _ filling} _ _ _ filled := by
    rw [chain_output, Outline.chain, Filling.outline]
    cases above : filling.prototype with
    | none => rfl
    | some out =>
      have none_ := filled.prototype out above
      simp [none_]
  caught _ _ := rfl

theorem chain_rendering (on : options.summarizeBinary = true) {v : Value} {key : Option JsString}
    {seen seen' : List Nat} {out : Output} (within : v.Within g.size)
    (ran : (rendering engine g options depth v key).walk seen = (.ok out, seen')) :
    out.chain = none := by
  obtain ⟨fate, seen'', goes⟩ := exists_goes engine options seen depth key within
  exact (preserved_chain on).taskGood goes within (fun _ _ => trivial) out _ ran

end

end QuietStorage.Logger
