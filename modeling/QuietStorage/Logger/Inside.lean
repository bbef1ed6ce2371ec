import QuietStorage.Logger.Outputs

/-!
# Logger.Inside — what is shown stands in the output

The output of a call that is shown stands inside of the output for the whole value, as deep as the call
or deeper (`Shown.inside`). The keys of a record are all different, so what was written once is not
written again, but for the number of keys.
-/

set_option autoImplicit false

namespace QuietStorage.Logger

open Lib Lib.Js Lib.Traversal

/-! ## Inside of an output -/

/-- An output stands so many levels inside of another. -/
inductive Output.Inside : Nat → Output → Output → Prop
  | here (out : Output) : Inside 0 out out
  | item {n : Nat} {out item : Output} {items : List Output} (mem : item ∈ items)
    (inside : Inside n out item) : Inside (n + 1) out (.array items)
  | field {n : Nat} {out : Output} {prototype : Option Output} {fields : List (JsString × Output)}
    {field : JsString × Output} (mem : field ∈ fields) (inside : Inside n out field.2) :
    Inside (n + 1) out (.record prototype fields)
  | prototype {n : Nat} {out prototype : Output} {fields : List (JsString × Output)}
    (inside : Inside n out prototype) : Inside (n + 1) out (.record (some prototype) fields)

/-- The output of a call at this depth stands inside of the output of one above, as deep or deeper. -/
def Output.InsideFrom (deep depth : Nat) (out whole : Output) : Prop :=
  ∃ n, deep ≤ depth + n ∧ out.Inside n whole

theorem Output.Inside.trans {n n' : Nat} {out mid whole : Output} (inside : out.Inside n mid)
    (outside : mid.Inside n' whole) : out.Inside (n + n') whole := by
  induction outside with
  | here => exact inside
  | item mem _ ih => exact .item mem (ih inside)
  | field mem _ ih => exact .field mem (ih inside)
  | prototype _ ih => exact .prototype (ih inside)

theorem mem_pairs {outs : List Output} (even : outs.length % 2 = 0) {out : Output} (mem : out ∈ outs) :
    ∃ key value, .array [key, value] ∈ pairs outs ∧ out ∈ [key, value] := by
  induction outs using pairs.induct with
  | case1 key value rest ih =>
    rw [List.length_cons, List.length_cons] at even
    rw [pairs]
    rcases List.mem_cons.mp mem with rfl | mem
    · exact ⟨out, value, .head _, .head _⟩
    · rcases List.mem_cons.mp mem with rfl | mem
      · exact ⟨key, out, .head _, .tail _ (.head _)⟩
      · obtain ⟨key', value', memPairs, among⟩ := ih (by omega) mem
        exact ⟨key', value', .tail _ memPairs, among⟩
  | case2 outs short =>
    cases outs with
    | nil => cases mem
    | cons key rest =>
      cases rest with
      | nil => cases even
      | cons value rest => exact absurd rfl (short key value rest)

section
variable {engine : Engine} {g : Graph} {options : RequiredOptions} {depth : Nat}

theorem mem_marked {outs : List Output} {out : Output} (mem : out ∈ outs) (length : Nat) :
    out.Inside 1 (marked options outs length) := by
  unfold marked appendTruncationMarker
  refine .item ?_ (.here out)
  split
  · split
    · exact mem
    · exact List.mem_append_left _ mem
  · exact mem

theorem length_entryParts (entries : List (Value × Value)) :
    (entries.flatMap (entryParts g)).length = 2 * entries.length := by
  induction entries with
  | nil => rfl
  | cons entry entries ih =>
    have two : (entryParts g entry).length = 2 := rfl
    rw [List.flatMap_cons, List.length_append, ih, two, List.length_cons]
    omega

/-- What comes of a part of a container stands in its output. -/
theorem Container.inside_finish {node : Node} {marker limit : Output} {parts : List Part}
    {finish : List Output → Output} (container : Container g options node marker limit parts finish)
    {outs : List Output} (length : outs.length = parts.length) {out : Output} (mem : out ∈ outs) :
    ∃ n, 1 ≤ n ∧ out.Inside n (finish outs) := by
  cases container with
  | array items => exact ⟨1, le_rfl, mem_marked mem _⟩
  | set values => exact ⟨2, by decide, .field (.tail _ (.tail _ (.head _))) (mem_marked mem _)⟩
  | map entries =>
    have even : outs.length % 2 = 0 := by
      rw [length, length_entryParts, Nat.mul_mod_right]
    obtain ⟨key, value, memPairs, among⟩ := mem_pairs even mem
    have inside : out.Inside 2 (marked options (pairs outs) entries.length) :=
      Output.Inside.trans (.item among (.here out)) (mem_marked memPairs _)
    exact ⟨3, by decide, .field (.tail _ (.tail _ (.head _))) inside⟩

end

/-! ## What is shown stands in the output -/

/-- The properties of the record are all different. -/
def Task.Distinct : Task → Prop
  | .properties _ fields _ _ => (fields.map Prod.fst).Nodup
  | .call _ _ _ | .parts _ _ => True

section
variable (engine : Engine) (g : Graph) (options : RequiredOptions)

/-- The output stands in what the task comes to: not in what is written again with the number of keys. -/
def Holds (deep : Nat) (out : Output) : Task → List Nat → Prop
  | .call depth v key, seen => ∀ whole seen',
    (rendering engine g options depth v key).walk seen = (.ok whole, seen') →
      out.InsideFrom deep depth whole
  | .parts depth parts, seen => ∀ outs seen',
    (parts.mapM (sanitizePart (rendering engine g options) depth)).walk seen = (.ok outs, seen') →
      ∃ whole ∈ outs, out.InsideFrom deep (depth + 1) whole
  | .properties depth fields outline truncated, seen => ∀ filling : Filling, filling.outline = outline →
    ∀ filling' seen', (fields.foldlM (sanitizeProperty engine (rendering engine g options) depth)
      filling).walk seen = (.ok filling', seen') →
        ∃ whole, out.InsideFrom deep (depth + 1) whole ∧
          (whole ∈ filling'.prototype ∨ ∃ key, (key, whole) ∈ filling'.fields ∧
            ¬(truncated = true ∧ key = ascii "__truncatedKeys"))

end

section
variable {engine : Engine} {g : Graph} {options : RequiredOptions} {depth : Nat}

theorem distinct_visible {r : Nat} (within : r < g.size) {inherited : Option JsString}
    {fields : List (JsString × Value)} (isNode : g.node r = .record inherited fields) (limit : Nat) :
    ((visible options limit fields).map Prod.fst).Nodup := by
  have distinct := g.distinct r within
  rw [isNode] at distinct
  unfold visible
  split
  · exact distinct.sublist ((List.take_sublist limit fields).map Prod.fst)
  · exact distinct

theorem ShownFrom.distinct {state state' : State} (within : state.1.Within g)
    (distinct : state.1.Distinct) (shown : ShownFrom engine g options state state') :
    state'.1.Distinct := by
  induction shown with
  | refl => exact distinct
  | tail reaches step ih =>
    have inside := (ShownFrom.goneThrough reaches).within within
    rcases step with through | kept
    · cases through with
      | opens isTurn =>
        obtain ⟨_, rfl, _, _, _, isNode, _⟩ := turn_opens isTurn
        exact distinct_visible inside isNode MAX_OBJECT_KEYS
      | properties _ _ => exact (List.nodup_cons.mp ih).2
      | _ => trivial
    · cases kept with
      | value _ _ => trivial

/-- What is written under another key is still there when the record is filled. -/
theorem mem_of_filled {recur : Nat → Value → Option JsString → Sanitizing Output}
    {fields : List (JsString × Value)} {filling filling' : Filling} {seen seen' : List Nat}
    (ran : (fields.foldlM (sanitizeProperty engine recur depth) filling).walk seen =
      (.ok filling', seen')) {field : JsString × Output} (mem : field ∈ filling.fields)
    (unwritten : field.1 ∉ fields.map Prod.fst) : field ∈ filling'.fields := by
  refine foldlM_invariant (P := fun filling => field ∈ filling.fields) ?_ mem ran
  intro property memProperty filling seen filling' seen' mem ran
  obtain ⟨result, _, assigned⟩ := sanitizeProperty_eq_ok ran
  refine (assign_spec assigned).mem_of_ne mem fun isKey => unwritten ?_
  rw [isKey]
  exact List.mem_map_of_mem memProperty

theorem prototype_of_filled {recur : Nat → Value → Option JsString → Sanitizing Output}
    {fields : List (JsString × Value)} {filling filling' : Filling} {seen seen' : List Nat}
    (ran : (fields.foldlM (sanitizeProperty engine recur depth) filling).walk seen =
      (.ok filling', seen')) (unwritten : ascii "__proto__" ∉ fields.map Prod.fst) :
    filling'.prototype = filling.prototype := by
  refine foldlM_invariant (P := fun filling' => filling'.prototype = filling.prototype) ?_ rfl ran
  intro property memProperty filling₁ seen filling₂ seen' same ran
  obtain ⟨result, _, assigned⟩ := sanitizeProperty_eq_ok ran
  have notProto : property.1 ≠ ascii "__proto__" :=
    fun isProto => unwritten (isProto ▸ List.mem_map_of_mem memProperty)
  have spec := assign_spec assigned
  generalize property.1 = key at spec notProto
  cases spec with
  | prototype _ => exact absurd rfl notProto
  | _ => exact same

/-- What stays in the record is there when its keys have been counted. -/
theorem inside_counted {filling filling' : Filling} {count : Nat}
    (isCounted : countTruncated engine options filling count = .ok filling') {whole : Output}
    (stays : whole ∈ filling.prototype ∨ ∃ key, (key, whole) ∈ filling.fields ∧
      ¬((options.sanitizeValues && decide (MAX_OBJECT_KEYS < count)) = true ∧
        key = ascii "__truncatedKeys")) :
    whole.Inside 1 filling'.output := by
  have kept : whole ∈ filling'.prototype ∨ ∃ key, (key, whole) ∈ filling'.fields := by
    unfold countTruncated at isCounted
    split at isCounted
    · next truncated =>
      have assigned := assign_spec isCounted
      rcases stays with above | ⟨key, mem, notCount⟩
      · have notProto : ascii "__truncatedKeys" ≠ ascii "__proto__" := by decide
        refine .inl ?_
        generalize ascii "__truncatedKeys" = key at assigned notProto
        cases assigned with
        | prototype _ => exact absurd rfl notProto
        | _ => exact above
      · exact .inr ⟨key, assigned.mem_of_ne mem fun isCount => notCount ⟨truncated, isCount⟩⟩
    · cases isCounted
      exact stays.imp_right fun ⟨key, mem, _⟩ => ⟨key, mem⟩
  rcases filling' with ⟨prototype, fields⟩
  rcases kept with above | ⟨key, mem⟩
  · cases above
    exact .prototype (.here whole)
  · exact .field mem (.here whole)

/-- The type of a record stands in its output unless a property has that name. -/
theorem type_inside {type : Value} {recur : Nat → Value → Option JsString → Sanitizing Output}
    {fields : List (JsString × Value)} {filling filling' : Filling} {seen seen' : List Nat} {count : Nat}
    (typed : (ascii "type", Output.value type) ∈ (typedFilling type).fields)
    (unwritten : ∀ field ∈ fields, field.1 ≠ ascii "type")
    (ran : (fields.foldlM (sanitizeProperty engine recur depth) (typedFilling type)).walk seen =
      (.ok filling, seen'))
    (isCounted : countTruncated engine options filling count = .ok filling') :
    (Output.value type).Inside 1 filling'.output := by
  have unassigned : ascii "type" ∉ fields.map Prod.fst := by
    intro mem
    obtain ⟨field, memField, isKey⟩ := List.mem_map.mp mem
    exact unwritten field memField isKey
  have notCount : ascii "type" ≠ ascii "__truncatedKeys" := by decide
  have filled := mem_of_filled ran typed unassigned
  exact inside_counted isCounted (.inr ⟨_, filled, fun counted => notCount counted.2⟩)

/-- A value that is kept stands in the record. -/
theorem inside_assigned {filling filling₁ : Filling} {key : JsString} {out : Output} {truncated : Bool}
    (assigned : Assigned engine filling key out filling₁)
    (kept : (filling.outline).keeps engine truncated key out.asPrototype = true) :
    key = ascii "__proto__" ∧ filling₁.prototype = some out ∨
      (key, out) ∈ filling₁.fields ∧ ¬(truncated = true ∧ key = ascii "__truncatedKeys") := by
  cases assigned with
  | prototype isPrototype => exact .inl ⟨rfl, rfl⟩
  | noPrototype noPrototype =>
    rw [Outline.keeps, if_pos rfl, Output.asPrototype, noPrototype] at kept
    cases kept
  | ignored notProto ignored =>
    rw [Outline.keeps, if_neg notProto, ignored] at kept
    cases kept
  | field notProto taken =>
    rw [Outline.keeps, if_neg notProto, taken] at kept
    refine .inr ⟨mem_setField_self, ?_⟩
    simpa [imp_iff_not_or] using kept

/-- What is inside of a step stands in what the task comes to. -/
theorem holds_step {deep : Nat} {out : Output} {state state' : State} (within : state.1.Within g)
    (distinct : state.1.Distinct)
    (step : Through engine g options state state' ∨ Kept engine g options state state')
    (holds : Holds engine g options deep out state'.1 state'.2) :
    Holds engine g options deep out state.1 state.2 := by
  rcases step with through | kept
  · cases through with
    | follows isTurn =>
      intro whole seen' ran
      obtain ⟨sanitized, ranCause, rfl⟩ := rendering_follows within isTurn ran
      obtain ⟨n, le, inside⟩ := holds _ _ ranCause
      exact ⟨n + 1, by omega, .field (List.mem_append_right _ (.head _)) inside⟩
    | enters isTurn =>
      intro whole seen' ran
      obtain ⟨_, _, _, _, _, _, container⟩ := turn_enters isTurn
      obtain ⟨outs, seen₁, ranAll, rfl⟩ := rendering_enters within isTurn ran
      obtain ⟨whole, mem, n, le, inside⟩ := holds _ _ ranAll
      obtain ⟨m, one, finished⟩ := container.inside_finish (length_mapM ranAll) mem
      exact ⟨n + m, by omega, inside.trans finished⟩
    | opens isTurn =>
      intro whole seen' ran
      obtain ⟨filling, filling', seen₁, ranAll, isCounted, rfl⟩ := rendering_opens within isTurn ran
      obtain ⟨whole, ⟨n, le, inside⟩, stays⟩ := holds _ rfl _ _ ranAll
      exact ⟨n + 1, by omega, inside.trans (inside_counted isCounted stays)⟩
    | first =>
      intro outs seen' ran
      obtain ⟨first, seen₁, rest, ranFirst, ranRest, rfl⟩ := mapM_cons_eq_ok.mp ran
      exact ⟨first, .head _, holds _ _ ranFirst⟩
    | parts first =>
      intro outs seen' ran
      obtain ⟨result, _, ranGoes⟩ := first.renders (within _ _ (.head _))
      obtain ⟨first, seen₁, rest, ranFirst, ranRest, rfl⟩ := mapM_cons_eq_ok.mp ran
      obtain ⟨_, rfl⟩ := Prod.mk.inj (ranGoes.symm.trans ranFirst)
      obtain ⟨whole, mem, inside⟩ := holds _ _ ranRest
      exact ⟨whole, .tail _ mem, inside⟩
    | properties value assigned =>
      rintro filling rfl filling' seen' ran
      obtain ⟨result, filling₁, rfl, ranValue, isAssigned, ranRest⟩ :=
        value.filled (within _ (.head _)) ran
      have outlined := outline_assign_ok isAssigned
      rw [asPrototype_assignedOutput, assigned] at outlined
      exact holds filling₁ (Option.some.inj outlined).symm filling' seen' ranRest
  · cases kept with
    | value returned kept =>
      rintro filling rfl filling' seen' ran
      obtain ⟨result, filling₁, isFate, ranValue, isAssigned, ranRest⟩ :=
        returned.filled (within _ (.head _)) ran
      cases result with
      | error error => cases isFate
      | ok whole =>
        cases isFate
        obtain ⟨unwritten, _⟩ := List.nodup_cons.mp distinct
        refine ⟨whole, holds _ _ ranValue, ?_⟩
        rcases inside_assigned (assign_spec isAssigned) kept with ⟨rfl, above⟩ | ⟨mem, stays⟩
        · rw [prototype_of_filled ranRest unwritten, above]
          exact .inl rfl
        · exact .inr ⟨_, mem_of_filled ranRest mem unwritten, stays⟩

theorem ShownFrom.holds {deep : Nat} {out : Output} {state state' : State}
    (shown : ShownFrom engine g options state state') (within : state.1.Within g)
    (distinct : state.1.Distinct) (holds : Holds engine g options deep out state'.1 state'.2) :
    Holds engine g options deep out state.1 state.2 := by
  induction shown using Relation.ReflTransGen.head_induction_on with
  | refl => exact holds
  | @head state state' step _ ih =>
    have next : ShownFrom engine g options state state' := .single step
    exact holds_step within distinct step
      (ih (next.goneThrough.within within) (next.distinct within distinct))

/-- **The output of a call that is shown stands in the whole**, at least as deep as the call. -/
theorem Shown.inside {input : Input} {v : Value} {key : Option JsString} {seen seen' : List Nat}
    {out whole : Output} (shown : Shown engine input options (.call depth v key, seen))
    (ran : (rendering engine input.graph options depth v key).walk seen = (.ok out, seen'))
    (returned : ((rendering engine input.graph options 0 input.value none).walk []).1 = .ok whole) :
    ∃ n, depth ≤ n ∧ out.Inside n whole := by
  have holds : Holds engine input.graph options depth out (.call depth v key) seen := by
    intro whole seen' ran'
    cases ran.symm.trans ran'
    exact ⟨0, le_rfl, .here out⟩
  have all : Holds engine input.graph options depth out input.state.1 input.state.2 :=
    shown.2.holds input.within trivial holds
  obtain ⟨n, le, inside⟩ := all whole _ (Prod.ext returned rfl)
  exact ⟨n, by omega, inside⟩

/-- What is shown does not throw. -/
theorem Shown.notThrows {input : Input} {state : State} (shown : Shown engine input options state) :
    ¬Throws engine input.graph options state := by
  obtain ⟨notThrows, reaches⟩ := shown
  induction reaches with
  | refl => exact notThrows
  | tail reaches step ih =>
    rcases step with through | kept
    · exact fun throws => ih (throws.step through)
    · have inside := (ShownFrom.goneThrough reaches).within input.within
      refine (not_throws_iff (kept.tried.within inside)).mpr ?_
      cases kept with
      | value returned _ => exact ⟨_, _, returned⟩

theorem Shown.within {input : Input} {state : State} (shown : Shown engine input options state) :
    state.1.Within input.graph := shown.2.goneThrough.within input.within

/-- A call that is shown returns. -/
theorem Shown.returns {input : Input} {v : Value} {key : Option JsString} {seen : List Nat}
    (shown : Shown engine input options (.call depth v key, seen)) :
    ∃ out seen', (rendering engine input.graph options depth v key).walk seen = (.ok out, seen') := by
  obtain ⟨prototype, seen', goes⟩ := (not_throws_iff shown.within).mp shown.notThrows
  obtain ⟨result, isFate, ran⟩ := goes.renders shown.within
  cases result with
  | error error => cases isFate
  | ok out => exact ⟨out, seen', ran⟩

end

end QuietStorage.Logger
