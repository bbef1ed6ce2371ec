import QuietStorage.Lib.Secrets
import QuietStorage.Logger.Inside

/-!
# Logger.Redaction — that secrets do not reach the log

**What is expected** of a value that is logged (`Noninterfering`): from two graphs that differ only under
sensitive keys the outputs are equal, if values are sanitized. Equal outputs have the same parts, and
where values of the input stand in them, these have the same contents.

**When it is so** (`noninterfering_iff`). What is under a sensitive key is redacted before it is looked
at, so the parts are always the same (`sanitizeValue_eq`). But two values of the input are put into
outputs as they are: what the constructor of a record is called, which may be any value if the record
has its own `constructor`, and the `data` of a serialized Buffer if binary data is not summarized
(`Exposed`). Where the record is shown they must not reach anything that is held under a sensitive key.
-/

set_option autoImplicit false

namespace QuietStorage.Logger

open Lib Lib.Js Lib.Js.Graph Lib.Traversal Filter

/-! ## The values in an output -/

/-- All values of the input that stand in the output are such. -/
inductive Output.All (P : Value → Prop) : Output → Prop
  | value {v : Value} (here : P v) : All P (.value v)
  | binary {r : Nat} {kind : BinaryKind} {bytes : List UInt8} (here : P (.ref r)) :
    All P (.binary r kind bytes)
  | array {items : List Output} (each : ∀ out ∈ items, All P out) : All P (.array items)
  | record {prototype : Option Output} {fields : List (JsString × Output)}
    (above : ∀ out ∈ prototype, All P out) (each : ∀ field ∈ fields, All P field.2) :
    All P (.record prototype fields)

section
variable {P : Value → Prop}

theorem Output.All.mono {Q : Value → Prop} (implies : ∀ v, P v → Q v) {out : Output}
    (all : out.All P) : out.All Q := by
  induction all with
  | value here => exact .value (implies _ here)
  | binary here => exact .binary (implies _ here)
  | array _ ih => exact .array ih
  | record _ _ above each => exact .record above each

@[simp] theorem all_value {v : Value} : Output.All P (.value v) ↔ P v :=
  ⟨fun all => match all with | .value here => here, .value⟩

@[simp] theorem all_binary {r : Nat} {kind : BinaryKind} {bytes : List UInt8} :
    Output.All P (.binary r kind bytes) ↔ P (.ref r) :=
  ⟨fun all => match all with | .binary here => here, .binary⟩

@[simp] theorem all_array {items : List Output} :
    Output.All P (.array items) ↔ ∀ out ∈ items, out.All P :=
  ⟨fun all => match all with | .array each => each, .array⟩

theorem all_record {prototype : Option Output} {fields : List (JsString × Output)} :
    Output.All P (.record prototype fields) ↔
      (∀ out ∈ prototype, out.All P) ∧ ∀ field ∈ fields, field.2.All P := by
  constructor
  · intro all
    cases all with
    | record above each => exact ⟨above, each⟩
  · exact fun ⟨above, each⟩ => .record above each

@[simp] theorem all_plain {fields : List (JsString × Output)} :
    Output.All P (.plain fields) ↔ ∀ field ∈ fields, field.2.All P := by
  simp [Output.plain, all_record]

@[simp] theorem all_text {s : JsString} : Output.All P (.text s) ↔ P (.string s) := all_value

/-- What stands inside of an output has no other values. -/
theorem Output.All.inside {n : Nat} {out whole : Output} (all : whole.All P)
    (inside : out.Inside n whole) : out.All P := by
  induction inside with
  | here => exact all
  | item mem _ ih => exact ih (all_array.mp all _ mem)
  | field mem _ ih => exact ih ((all_record.mp all).2 _ mem)
  | prototype _ ih => exact ih ((all_record.mp all).1 _ rfl)

@[simp] theorem all_count {n : Nat} : Output.All P (.count n) ↔ P (.number (.ofNat n)) := all_value

end

/-! ## What is expected -/

/-- The outputs are equal: they have the same parts, and the values in them the same contents. -/
def SameOutput (g g' : Graph) (result result' : Except Exception Output) : Prop :=
  result = result' ∧ ∀ out, result = .ok out → out.All (g.SameContents g')

/-- **What is expected**: what is under sensitive keys makes no difference to the output. -/
def Noninterfering (engine : Engine) (input : Input) (summarizeBinary : Bool) : Prop :=
  ∀ g', DifferUnder isSensitiveKey input.graph g' → ∀ options : LogSanitizerOptions,
    options.required = ⟨true, summarizeBinary⟩ → ∀ᶠ stack in atTop,
      SameOutput input.graph g' (sanitizeLogValue engine input.graph stack input.value options)
        (sanitizeLogValue engine g' stack input.value options)

/-- A value that a call puts into its output as it is: what the constructor of a record is called, unless
that is written again by a property called `type`, or the data of a serialized Buffer. -/
inductive Exposed (g : Graph) (options : RequiredOptions) : State → Value → Prop
  | type {depth : Nat} {v : Value} {key : Option JsString} {seen : List Nat} {r : Nat} {type : Value}
    {fields : List (JsString × Value)} (isTurn : turn g options depth seen v key = .opens r type fields)
    (unwritten : ∀ field ∈ visible options MAX_OBJECT_KEYS fields, field.1 ≠ ascii "type") :
    Exposed g options (.call depth v key, seen) type
  | data {depth : Nat} {key : Option JsString} {seen : List Nat} {r : Nat} {inherited : Option JsString}
    {fields : List (JsString × Value)} {data : Value} {items : List Value}
    (notRedacted : redacted options key = false) (isNode : g.node r = .record inherited fields)
    (isBuffer : asSerializedBuffer g fields = some (data, items))
    (unsummarized : options.summarizeBinary = false) :
    Exposed g options (.call depth (.ref r) key, seen) data

/-- **The condition**: nothing under a sensitive key is reached from a value that is exposed where it is
shown. -/
def NothingExposed (engine : Engine) (input : Input) (summarizeBinary : Bool) : Prop :=
  ∀ state v, Shown engine input ⟨true, summarizeBinary⟩ state →
    Exposed input.graph ⟨true, summarizeBinary⟩ state v →
      ∀ r, input.graph.Reaches v r → ¬input.graph.HoldsSecret isSensitiveKey (input.graph.node r)

/-! ## Two graphs -/

section
variable {engine : Engine} {g g' : Graph} {options : RequiredOptions} {depth r : Nat}

theorem sanitizeStep_redacted {recur : Nat → Value → Option JsString → Sanitizing Output} {v : Value}
    {key : Option JsString} (isRedacted : redacted options key = true) :
    sanitizeStep engine g addDelete options recur depth v key = pure (.text REDACTED_VALUE) :=
  if_pos isRedacted

theorem sanitizeStep_ref {recur : Nat → Value → Option JsString → Sanitizing Output}
    {key : Option JsString} (notRedacted : redacted options key = false) :
    sanitizeStep engine g addDelete options recur depth (.ref r) key =
      sanitizeNode engine g addDelete options recur depth r (g.node r) := by
  unfold sanitizeStep
  rw [notRedacted, if_neg Bool.false_ne_true]
  rfl

theorem sanitizeStep_primitive {recur : Nat → Value → Option JsString → Sanitizing Output} {v : Value}
    {out : Output} {key : Option JsString} (notRedacted : redacted options key = false)
    (isPrimitive : sanitizePrimitive options v = some out) :
    sanitizeStep engine g addDelete options recur depth v key = pure out := by
  unfold sanitizeStep
  rw [notRedacted, if_neg Bool.false_ne_true, isPrimitive]

theorem sanitizeValue_redacted (on : options.sanitizeValues = true) {name : JsString}
    (sensitive : isSensitiveKey name = true) (stack : Nat) (v v' : Value) :
    sanitizeValue engine g addDelete options stack depth v (some name) =
      sanitizeValue engine g' addDelete options stack depth v' (some name) := by
  have isRedacted : redacted options (some name) = true := by
    rw [redacted, on, Option.any_some, sensitive, Bool.and_self]
  cases stack with
  | zero => rfl
  | succ stack =>
    unfold sanitizeValue
    rw [sanitizeStep_redacted isRedacted, sanitizeStep_redacted isRedacted]

theorem asSerializedBuffer_eq (differ : DifferUnder isSensitiveKey g g')
    {fields fields' : List (JsString × Value)}
    (related : List.Forall₂ (AgreeBut (isSensitiveKey · = true)) fields fields')
    (within : ∀ field ∈ fields, field.2.Within g.size) :
    asSerializedBuffer g fields = asSerializedBuffer g' fields' := by
  have plain : isSensitiveKey (ascii "type") = false ∧ isSensitiveKey (ascii "data") = false := by
    decide
  unfold asSerializedBuffer
  rw [← (lookup_of_agree related (ascii "type")).2 (by rw [plain.1]; exact Bool.false_ne_true),
    ← (lookup_of_agree related (ascii "data")).2 (by rw [plain.2]; exact Bool.false_ne_true)]
  cases isData : fields.lookup (ascii "data") with
  | none => rfl
  | some data => simp only [differ.items?_eq (within _ (mem_of_lookup isData))]

theorem forall₂_visible {α β : Type} {R : α → β → Prop} (options : RequiredOptions) (limit : Nat)
    {l : List α} {l' : List β} (related : List.Forall₂ R l l') :
    List.Forall₂ R (visible options limit l) (visible options limit l') := by
  unfold visible
  split
  · exact List.forall₂_take limit related
  · exact related

section
variable {recur recur' : Nat → Value → Option JsString → Sanitizing Output}
  (differ : DifferUnder isSensitiveKey g g')
  (same : ∀ v key, v.Within g.size → recur (depth + 1) v key = recur' (depth + 1) v key)
  (redacts : ∀ name, isSensitiveKey name = true → ∀ v v',
    recur (depth + 1) v (some name) = recur' (depth + 1) v' (some name))
include differ same redacts

/-- Entries that agree but under a sensitive key are rendered by the same program. -/
theorem sanitizeEntry_eq {entry entry' : Value × Value}
    (within : entry.1.Within g.size ∧ entry.2.Within g.size)
    (agree : AgreeBut (g.SecretEntry isSensitiveKey) entry entry') :
    sanitizeEntry g recur depth entry = sanitizeEntry g' recur' depth entry' := by
  obtain ⟨isKey, held⟩ := agree
  unfold sanitizeEntry
  rw [← isKey, same entry.1 none within.1, ← differ.stringOf_eq within.1]
  congr 1
  funext keyOut
  cases isName : g.stringOf entry.1 with
  | error e => rfl
  | ok name =>
    simp only [ofExcept_ok_bind]
    rcases held with ⟨text, isText, sensitive⟩ | held
    · cases isText.symm.trans isName
      rw [redacts name sensitive entry.2 entry'.2]
    · rw [← held, same entry.2 (some name) within.2]

omit differ in
theorem sanitizeProperty_eq {field field' : JsString × Value} (within : field.2.Within g.size)
    (agree : AgreeBut (isSensitiveKey · = true) field field') :
    ∀ output, sanitizeProperty engine recur depth output field =
      sanitizeProperty engine recur' depth output field' := by
  intro output
  obtain ⟨isKey, held⟩ := agree
  unfold sanitizeProperty
  rw [← isKey]
  rcases held with sensitive | held
  · rw [redacts field.1 sensitive field.2 field'.2]
  · rw [← held, same field.2 (some field.1) within]

theorem sanitizeMap_eq {entries entries' : List (Value × Value)}
    (within : ∀ entry ∈ entries, entry.1.Within g.size ∧ entry.2.Within g.size)
    (related : List.Forall₂ (AgreeBut (g.SecretEntry isSensitiveKey)) entries entries') :
    sanitizeMap g addDelete options recur depth r entries =
      sanitizeMap g' addDelete options recur' depth r entries' := by
  have each := forall₂_visible options MAX_ARRAY_ITEMS
    ((List.forall₂_and_left _ _).mpr ⟨within, related⟩)
  unfold sanitizeMap
  rw [related.length_eq, mapM_congr (each.imp fun entry entry' ⟨within, agree⟩ =>
    sanitizeEntry_eq differ same redacts within agree)]

omit differ in
theorem sanitizeProperties_eq {type : Value} {fields fields' : List (JsString × Value)}
    (within : ∀ field ∈ fields, field.2.Within g.size)
    (related : List.Forall₂ (AgreeBut (isSensitiveKey · = true)) fields fields') :
    sanitizeProperties engine options recur depth type fields =
      sanitizeProperties engine options recur' depth type fields' := by
  have each := forall₂_visible options MAX_OBJECT_KEYS
    ((List.forall₂_and_left _ _).mpr ⟨within, related⟩)
  unfold sanitizeProperties
  rw [related.length_eq, foldlM_congr (each.imp fun field field' ⟨within, agree⟩ =>
    sanitizeProperty_eq same redacts within agree)]

theorem sanitizeObject_eq {inherited : Option JsString} {fields fields' : List (JsString × Value)}
    (within : ∀ field ∈ fields, field.2.Within g.size)
    (related : List.Forall₂ (AgreeBut (isSensitiveKey · = true)) fields fields') :
    sanitizeObject engine g addDelete options recur depth r inherited fields =
      sanitizeObject engine g' addDelete options recur' depth r inherited fields' := by
  have plain : isSensitiveKey (ascii "name") = false ∧
      isSensitiveKey (ascii "constructor") = false := by decide
  unfold sanitizeObject
  rw [← differ.constructorName_eq plain.1 plain.2 inherited related within]
  congr 1
  funext seen
  split
  · rfl
  · cases isType : g.constructorName inherited fields with
    | error e => rw [ofExcept_error_bind, ofExcept_error_bind]
    | ok type =>
      simp only [ofExcept_ok_bind]
      rw [differ.toText_eq (constructorName_within within isType),
        sanitizeProperties_eq same redacts within related]

theorem sanitizeNode_eq (within : r < g.size) :
    sanitizeNode engine g addDelete options recur depth r (g.node r) =
      sanitizeNode engine g' addDelete options recur' depth r (g'.node r) := by
  have isSame := differ.node r within
  have held := g.closed r within
  cases isNode : g.node r with
  | record inherited fields =>
    have inside := g.within_of_record within isNode
    rw [isNode] at isSame
    obtain ⟨fields', isNode', related⟩ := isSame.of_record
    rw [isNode', sanitizeNode, sanitizeNode, ← asSerializedBuffer_eq differ related inside]
    split
    · rfl
    · exact sanitizeObject_eq differ same redacts inside related
  | map entries =>
    have inside := g.within_of_map within isNode
    rw [isNode] at isSame
    obtain ⟨entries', isNode', related⟩ := isSame.of_map
    rw [isNode']
    exact sanitizeMap_eq differ same redacts inside related
  | error constructorName name message stack cause =>
    rw [isNode] at isSame held
    rw [← isSame]
    show sanitizeError options recur depth constructorName name message stack cause =
      sanitizeError options recur' depth constructorName name message stack cause
    rw [sanitizeError, sanitizeError,
      same cause (some (ascii "cause")) (held cause (List.mem_singleton_self _))]
  | set values =>
    rw [isNode] at isSame held
    rw [← isSame]
    have each : ∀ v ∈ visible options MAX_ARRAY_ITEMS values, sanitizeItem recur depth v =
        sanitizeItem recur' depth v := fun v mem => same v none (held v (mem_of_mem_visible mem))
    show sanitizeSet addDelete options recur depth r values =
      sanitizeSet addDelete options recur' depth r values
    rw [sanitizeSet, sanitizeSet, mapM_congr (List.forall₂_same.mpr each)]
  | array items =>
    rw [isNode] at isSame held
    rw [← isSame]
    have each : ∀ v ∈ visible options MAX_ARRAY_ITEMS items, sanitizeItem recur depth v =
        sanitizeItem recur' depth v := fun v mem => same v none (held v (mem_of_mem_visible mem))
    show sanitizeArray addDelete options recur depth r items =
      sanitizeArray addDelete options recur' depth r items
    rw [sanitizeArray, sanitizeArray, mapM_congr (List.forall₂_same.mpr each)]
  | date iso text =>
    rw [isNode] at isSame
    rw [← isSame]
    cases iso <;> rfl
  | binary kind bytes text =>
    rw [isNode] at isSame
    rw [← isSame]
    rfl

end

/-- **The same program runs for both graphs.** -/
theorem sanitizeValue_eq (differ : DifferUnder isSensitiveKey g g')
    (on : options.sanitizeValues = true) (stack : Nat) {depth : Nat} {v : Value}
    {key : Option JsString} (within : v.Within g.size) :
    sanitizeValue engine g addDelete options stack depth v key =
      sanitizeValue engine g' addDelete options stack depth v key := by
  induction stack generalizing depth v key with
  | zero => rfl
  | succ stack ih =>
    unfold sanitizeValue
    cases isRedacted : redacted options key with
    | true => rw [sanitizeStep_redacted isRedacted, sanitizeStep_redacted isRedacted]
    | false =>
      rcases v.primitive_or_ref with isPrimitive | ⟨r, rfl⟩
      · obtain ⟨out, isOut⟩ := exists_sanitizePrimitive options isPrimitive
        rw [sanitizeStep_primitive isRedacted isOut, sanitizeStep_primitive isRedacted isOut]
      · rw [sanitizeStep_ref isRedacted, sanitizeStep_ref isRedacted]
        exact sanitizeNode_eq differ (fun _ _ within => ih within)
          (fun _ sensitive _ _ => sanitizeValue_redacted on sensitive stack _ _) within

end

/-! ## What is in an output -/

/-- A value of the graph from which nothing under a sensitive key is reached. -/
def Clean (g : Graph) (v : Value) : Prop :=
  v.Within g.size ∧ ∀ r, g.Reaches v r → ¬g.HoldsSecret isSensitiveKey (g.node r)

section
variable {engine : Engine} {g : Graph} {options : RequiredOptions} {depth r : Nat} {out : Output}
  {v : Value} {key : Option JsString} {seen : List Nat}

theorem clean_of_primitive (isPrimitive : ∀ r, v ≠ .ref r) : Clean g v := by
  constructor
  · cases v with
    | ref r => exact absurd rfl (isPrimitive r)
    | _ => trivial
  · intro r reaches
    cases reaches with
    | here r => exact absurd rfl (isPrimitive r)
    | step _ _ => exact absurd rfl (isPrimitive _)

@[simp] theorem clean_string {s : JsString} : Clean g (.string s) := clean_of_primitive nofun

@[simp] theorem clean_number {n : Numeral} : Clean g (.number n) := clean_of_primitive nofun

@[simp] theorem clean_boolean {b : Bool} : Clean g (.boolean b) := clean_of_primitive nofun

@[simp] theorem clean_undefined : Clean g .undefined := clean_of_primitive nofun

@[simp] theorem circular_clean : circular.All (Clean g) := all_text.mpr clean_string

theorem mem_of_asSerializedBuffer {fields : List (JsString × Value)} {data : Value} {items : List Value}
    (isBuffer : asSerializedBuffer g fields = some (data, items)) :
    (ascii "data", data) ∈ fields := by
  unfold asSerializedBuffer at isBuffer
  split at isBuffer
  · split at isBuffer
    · next data isData =>
      obtain ⟨items, _, same⟩ := Option.map_eq_some_iff.mp isBuffer
      cases same
      exact mem_of_lookup isData
    · cases isBuffer
  · cases isBuffer

/-- What is exposed is a value of the graph. -/
theorem Exposed.within {state : State} (exposed : Exposed g options state v)
    (within : state.1.Within g) : v.Within g.size := by
  cases exposed with
  | type isTurn _ =>
    obtain ⟨_, rfl, _, _, inherited, isNode, _, isType⟩ := turn_opens isTurn
    exact constructorName_within (g.within_of_record within isNode) isType
  | data _ isNode isBuffer _ =>
    exact g.within_of_record within isNode _ (mem_of_asSerializedBuffer isBuffer)

theorem sanitizePrimitive_clean (isOut : sanitizePrimitive options v = some out) :
    out.All (Clean g) := by
  cases v with
  | ref r => cases isOut
  | null =>
    cases isOut
    exact all_value.mpr (clean_of_primitive nofun)
  | _ =>
    cases isOut
    simp [shown]

theorem describeBinary_clean {kind : BinaryKind} {bytes : List UInt8} {text : JsString}
    (within : r < g.size) (isNode : g.node r = .binary kind bytes text) :
    (describeBinary options r kind bytes).All (Clean g) := by
  unfold describeBinary
  split
  · cases kind with
    | _ => simp [describeBytes]
  · refine all_binary.mpr ⟨within, fun r' reaches => ?_⟩
    cases reaches with
    | here =>
      rw [isNode]
      exact nofun
    | step held _ =>
      rw [isNode] at held
      cases held

theorem errorOutput_clean {constructorName name message : JsString} {stack : Option JsString} :
    ∀ field ∈ errorOutput options constructorName name message stack, field.2.All (Clean g) := by
  cases stack with
  | none => simp [errorOutput, shown]
  | some stack => simp [errorOutput, shown]

theorem marked_clean {outs : List Output} {length : Nat} (each : ∀ out ∈ outs, out.All (Clean g)) :
    (marked options outs length).All (Clean g) := by
  unfold marked appendTruncationMarker
  rw [all_array]
  split
  · split
    · exact each
    · simpa [or_imp, forall_and] using each
  · exact each

theorem describeSerializedBuffer_clean {data : Value} {items : List Value}
    (clean : options.summarizeBinary = false → Clean g data) :
    (describeSerializedBuffer options data items).All (Clean g) := by
  unfold describeSerializedBuffer
  split
  · dsimp only
    split
    · simp
    · simp
  · next unsummarized => simpa using clean (Bool.eq_false_iff.mpr unsummarized)

theorem pairs_clean {outs : List Output} (each : ∀ out ∈ outs, out.All (Clean g)) :
    ∀ out ∈ pairs outs, out.All (Clean g) := by
  induction outs using pairs.induct with
  | case1 key value rest ih =>
    simp only [List.forall_mem_cons, pairs, all_array] at each ⊢
    exact ⟨⟨each.1, each.2.1, List.forall_mem_nil _⟩, ih each.2.2⟩
  | case2 outs short =>
    rw [pairs]
    · exact List.forall_mem_nil _
    · exact short

/-- What a container is replaced by, and what is made of its parts. -/
theorem container_clean {node : Node} {marker limit : Output} {parts : List Part}
    {finish : List Output → Output} (container : Container g options node marker limit parts finish) :
    marker.All (Clean g) ∧ limit.All (Clean g) ∧
      ∀ outs, (∀ out ∈ outs, out.All (Clean g)) → (finish outs).All (Clean g) := by
  cases container with
  | array items =>
    refine ⟨by simp, by simp, fun outs each => ?_⟩
    exact marked_clean each
  | set values =>
    refine ⟨by simp, by simp, fun outs each => ?_⟩
    simpa using marked_clean each
  | map entries =>
    refine ⟨by simp, by simp, fun outs each => ?_⟩
    simpa using marked_clean (pairs_clean each)

theorem rests_clean (within : v.Within g.size)
    (clean : ∀ v', Exposed g options (.call depth v key, seen) v' → Clean g v')
    (isTurn : turn g options depth seen v key = .rests out) : out.All (Clean g) := by
  have spec : CallTurn g options depth seen v key (turn g options depth seen v key) := turn_spec v key
  rw [isTurn] at spec
  cases spec with
  | redacted _ => simp
  | primitive _ isPrimitive => exact sanitizePrimitive_clean isPrimitive
  | @object r _ _ notRedacted isNode =>
    generalize nodeEq : g.node r = node at isNode
    cases isNode with
    | binary kind bytes text => exact describeBinary_clean within nodeEq
    | error absent => exact all_plain.mpr errorOutput_clean
    | date iso text => simp
    | seen container _ => exact (container_clean container).1
    | deep container _ _ => exact (container_clean container).2.1
    | buffer isBuffer =>
      exact describeSerializedBuffer_clean fun unsummarized =>
        clean _ (.data notRedacted nodeEq isBuffer unsummarized)
    | seenRecord _ _ => simp
    | deepRecord _ _ _ _ _ => simp

/-- **Every turn keeps what is put into an output as it is from secrets**, where what is exposed does not
reach any. -/
theorem preserved_clean (engine : Engine) (g : Graph) (options : RequiredOptions) :
    Preserved engine g options (fun state => ∀ v, Exposed g options state v → Clean g v)
      fun _ out => out.All (Clean g) where
  rests within clean isTurn := rests_clean within clean isTurn
  follows _ _ isTurn good := by
    obtain ⟨_, _, _, _, _, _, _, _, _, rfl⟩ := turn_follows isTurn
    refine all_plain.mpr fun field mem => ?_
    rcases List.mem_append.mp mem with mem | mem
    · exact errorOutput_clean field mem
    · rw [List.mem_singleton.mp mem]
      exact good
  enters _ _ isTurn _ good := by
    obtain ⟨_, _, _, _, _, _, container⟩ := turn_enters isTurn
    exact (container_clean container).2.2 _ good
  opens _ clean isTurn filled := by
    refine all_record.mpr ⟨filled.prototype, fun field mem => ?_⟩
    rcases filled.field field mem with ⟨rfl, unwritten⟩ | ⟨n, rfl⟩ | ⟨_, good⟩
    · refine all_value.mpr (clean _ (.type isTurn fun field mem isType => unwritten ?_))
      exact isType ▸ List.mem_map_of_mem mem
    · simp
    · exact good
  caught _ error := by simp [unserializable]

end

/-! ## Noninterference -/

section
variable {engine : Engine} {input : Input} {options : RequiredOptions}

/-- What is exposed stands in the output of the call. -/
theorem Exposed.inside {depth : Nat} {v v' : Value} {key : Option JsString} {seen seen' : List Nat}
    {g : Graph} (within : v.Within g.size)
    (exposed : Exposed g options (.call depth v key, seen) v') (isObject : ∃ r, v' = .ref r)
    {out : Output} (ran : (rendering engine g options depth v key).walk seen = (.ok out, seen')) :
    (Output.value v').Inside 1 out := by
  obtain ⟨r, rfl⟩ := isObject
  cases exposed with
  | @type _ _ _ _ _ _ fields isTurn unwritten =>
    obtain ⟨filling, filling', seen₁, ranAll, isCounted, rfl⟩ := rendering_opens within isTurn ran
    have typed : (ascii "type", Output.value (.ref r)) ∈ (typedFilling (.ref r)).fields :=
      List.mem_singleton_self _
    exact type_inside typed unwritten ranAll isCounted
  | data notRedacted isNode isBuffer unsummarized =>
    rw [rendering_step within, turn_ref notRedacted, isNode, nodeTurn, isBuffer] at ran
    cases ran
    rw [describeSerializedBuffer, unsummarized, if_neg Bool.false_ne_true]
    exact .field (.tail _ (.head _)) (.here _)

/-- What is exposed where it is shown has the same contents, if nothing makes a difference. -/
theorem Noninterfering.sameContents {summarizeBinary : Bool}
    (same : Noninterfering engine input summarizeBinary) {state : State} {v : Value}
    (shown : Shown engine input ⟨true, summarizeBinary⟩ state)
    (exposed : Exposed input.graph ⟨true, summarizeBinary⟩ state v) (isObject : ∃ r, v = .ref r) :
    input.graph.SameContents (input.graph.blanked isSensitiveKey) v := by
  have whole : Shown engine input ⟨true, summarizeBinary⟩ input.state := ⟨shown.1, .refl⟩
  obtain ⟨depth, v', key, seen, rfl⟩ : ∃ depth v' key seen, state = (.call depth v' key, seen) := by
    cases exposed with
    | type _ _ => exact ⟨_, _, _, _, rfl⟩
    | data _ _ _ _ => exact ⟨_, _, _, _, rfl⟩
  obtain ⟨out, seen', ran⟩ := shown.returns
  obtain ⟨all, seen'', ranAll⟩ := whole.returns
  obtain ⟨n, _, inside⟩ := shown.inside ran (congrArg Prod.fst ranAll)
  have differ := differUnder_blanked isSensitiveKey input.graph
  have eventually := same _ differ ⟨some true, some summarizeBinary⟩ rfl
  obtain ⟨stack, ⟨_, contents⟩, isRendering⟩ := (eventually.and
    (eventually_sanitizeLogValue engine input ⟨some true, some summarizeBinary⟩)).exists
  have allSame := contents all (isRendering.trans (congrArg Prod.fst ranAll))
  exact all_value.mp (allSame.inside ((exposed.inside shown.within isObject ran).trans inside))

end

/-- **Secrets make no difference** exactly if what is exposed reaches none. -/
theorem noninterfering_iff (engine : Engine) (input : Input) (summarizeBinary : Bool) :
    Noninterfering engine input summarizeBinary ↔ NothingExposed engine input summarizeBinary := by
  constructor
  · intro same state v shown exposed r reaches holds
    have isObject : ∃ r, v = .ref r := by
      cases reaches with
      | here r => exact ⟨_, rfl⟩
      | step _ _ => exact ⟨_, rfl⟩
    exact not_sameContents_blanked reaches holds (same.sameContents shown exposed isObject)
  · intro nothing g' differ options isOptions
    filter_upwards [eventually_sanitizeLogValue engine input options] with stack isRendering
    constructor
    · unfold sanitizeLogValue
      rw [isOptions, sanitizeValue_eq differ rfl stack input.within]
    · intro out returned
      rw [isRendering, isOptions] at returned
      have clean : out.All (Clean input.graph) :=
        (preserved_clean engine input.graph ⟨true, summarizeBinary⟩).output
          (fun state shown v exposed => ⟨exposed.within shown.within, nothing state v shown exposed⟩)
          returned
      exact clean.mono fun v ⟨inside, reaches⟩ => differ.sameContents inside reaches

/-- `{ constructor: { name: { token: 's' } } }`. -/
def exposingInput : Input where
  graph :=
    { node
        | 0 => .record (some (ascii "Object")) [(ascii "constructor", .ref 1)]
        | 1 => .record (some (ascii "Object")) [(ascii "name", .ref 2)]
        | _ => .record (some (ascii "Object")) [(ascii "token", .string (ascii "s"))]
      size := 3
      closed := by decide
      counted := by decide
      distinct := by decide
      uncalled := by decide }
  value := .ref 0
  within := by decide

/-- The token is redacted where the record stands, and not where it is taken for a type. -/
theorem token_in_type :
    (∀ summarizeBinary stack, sanitizeLogValue .v8 exposingInput.graph (stack + 4) (.ref 0)
      ⟨some true, some summarizeBinary⟩ = .ok (.plain [(ascii "type", .value (.ref 2)),
        (ascii "constructor", .plain
          [(ascii "name", .plain [(ascii "token", .text REDACTED_VALUE)])])])) ∧
    ∀ summarizeBinary, ¬Noninterfering .v8 exposingInput summarizeBinary := by
  have rendered : ∀ summarizeBinary stack, sanitizeLogValue .v8 exposingInput.graph (stack + 4) (.ref 0)
      ⟨some true, some summarizeBinary⟩ = .ok (.plain [(ascii "type", .value (.ref 2)),
        (ascii "constructor", .plain
          [(ascii "name", .plain [(ascii "token", .text REDACTED_VALUE)])])]) := by
    intro summarizeBinary stack
    cases summarizeBinary with
    | _ => rfl
  refine ⟨rendered, fun summarizeBinary same => ?_⟩
  have differ := differUnder_blanked isSensitiveKey exposingInput.graph
  have eventually := same _ differ ⟨some true, some summarizeBinary⟩ rfl
  obtain ⟨stack, _, contents⟩ := ((tendsto_add_atTop_nat 4).eventually eventually).exists
  have parts := all_plain.mp (contents _ (rendered summarizeBinary stack))
  have type := all_value.mp (parts _ (.head _))
  have holds : exposingInput.graph.HoldsSecret isSensitiveKey (exposingInput.graph.node 2) :=
    ⟨(ascii "token", .string (ascii "s")), List.mem_singleton_self _, by decide⟩
  exact not_sameContents_blanked (.here 2) holds type

end QuietStorage.Logger
