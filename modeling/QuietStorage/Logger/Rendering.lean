import QuietStorage.Logger.Course

/-!
# Logger.Rendering — the sanitizer goes so

On every stack that is large enough a task ends as `Goes` tells (`Goes.ends`); and if the seen set is
afterwards what it was before, so does the sanitizer that keeps the path. So a task goes in one way only
(`Goes.unique`).

`rendering` is what the calls of `sanitizeValue` come to do on large stacks. Every call performs its
turn (`rendering_step`), with the calls for the parts on the same stack.
-/

set_option autoImplicit false

namespace QuietStorage.Logger

open Lib Lib.Js Lib.Traversal Filter

/-! ## What the sanitizer does -/

section
variable (engine : Engine) (g : Graph) (options : RequiredOptions)

/-- The fate of a call, by its result. -/
def callFate (result : Except Exception Output) : Fate := .of (Output.asPrototype) result

/-- The fate of the parts of a container. -/
def partsFate (result : Except Exception (List Output)) : Fate := .of (fun _ => some none) result

/-- The fate of the properties of a record. -/
def propertiesFate (truncated : Bool) (result : Except Exception Filling) : Fate :=
  .of (fun filling => some ((filling.outline).finish engine truncated).chain) result

/-- The program for a task ends with this fate. -/
def TaskEnds : Task → List Nat → Fate → List Nat → Prop
  | .call depth v key, seen, fate, seen' =>
    ∃ result, callFate result = fate ∧
      EndsAs (fun visit stack => sanitizeValue engine g visit options stack depth v key) seen result seen'
  | .parts depth parts, seen, fate, seen' =>
    ∃ result, partsFate result = fate ∧
      EndsAs (fun visit stack =>
        parts.mapM (sanitizePart (sanitizeValue engine g visit options stack) depth)) seen result seen'
  | .properties depth fields outline truncated, seen, fate, seen' =>
    ∀ filling : Filling, filling.outline = outline →
      ∃ result, propertiesFate engine truncated result = fate ∧
        EndsAs (fun visit stack =>
          fields.foldlM (sanitizeProperty engine (sanitizeValue engine g visit options stack) depth)
            filling) seen result seen'

end

section
variable {engine : Engine} {g : Graph} {options : RequiredOptions} {depth : Nat}
  {seen seen' seen'' : List Nat}

theorem asPrototype_assignedOutput (engine : Engine) (result : Except Exception Output) :
    (assignedOutput engine result).asPrototype = (callFate result).prototype := by
  cases result with
  | ok out => rfl
  | error error => rfl

theorem leave_eq (r : Nat) (seen : List Nat) (result : Except Exception Output) :
    leave r seen result = (callFate result).leave r seen := by
  cases result with
  | ok out => rfl
  | error error => rfl

/-- A call whose turn is performed alike on every stack. -/
theorem endsAs_call {v : Value} {key : Option JsString} {result : Except Exception Output}
    (performed : EndsAs (fun visit stack => perform engine visit options
      (sanitizeValue engine g visit options stack) depth (turn g options depth seen v key))
      seen result seen') :
    EndsAs (fun visit stack => sanitizeValue engine g visit options stack depth v key) seen result
      seen' := by
  refine eventually_succ (performed.mono fun stack ended => ?_)
  simp only [sanitizeValue, walk_sanitizeStep]
  exact ended

/-- A property is written as its value ends. -/
theorem endsAs_property (filling : Filling) {key : JsString} {v : Value}
    {result : Except Exception Output}
    (value : EndsAs (fun visit stack => sanitizeValue engine g visit options stack (depth + 1) v (some key))
      seen result seen') :
    EndsAs (fun visit stack =>
        sanitizeProperty engine (sanitizeValue engine g visit options stack) depth filling (key, v))
      seen (filling.assign engine key (assignedOutput engine result)) seen' :=
  value.mono fun _ ⟨ended, path⟩ =>
    ⟨walk_sanitizeProperty ended, fun same => walk_sanitizeProperty (path same)⟩

/-- Where the causes do not end the stack does. -/
theorem sanitizeValue_endless (visit : Enter Nat Exception Output) (stack : Nat)
    {v : Value} {key : Option JsString} (endless : ¬Acc (CauseOf g) v)
    (notRedacted : redacted options key = false) :
    (sanitizeValue engine g visit options stack depth v key).walk seen =
      (.error .stackOverflow, seen) := by
  induction stack generalizing depth v key with
  | zero => rfl
  | succ stack ih =>
    obtain ⟨cause, isCause, further⟩ : ∃ cause, CauseOf g cause v ∧ ¬Acc (CauseOf g) cause := by
      by_contra none_
      exact endless ⟨v, fun cause isCause => by_contra fun notAcc => none_ ⟨cause, isCause, notAcc⟩⟩
    cases isCause with
    | @error r _ _ _ _ _ isNode present =>
      rw [sanitizeValue, walk_sanitizeStep, turn_ref notRedacted, isNode, nodeTurn, present,
        if_neg Bool.false_ne_true]
      exact walk_bind_of_error _ (ih further (redacted_cause options))

/-- The properties of a record are filled, and counted. -/
theorem endsAs_properties {type : Value} {fields : List (JsString × Value)} {fate : Fate}
    (inside : TaskEnds engine g options (openedTask options depth type fields) seen fate seen') :
    ∃ result, callFate result = fate ∧
      EndsAs (fun visit stack => sanitizeProperties engine options
        (sanitizeValue engine g visit options stack) depth type fields) seen result seen' := by
  obtain ⟨result, isFate, ended⟩ := inside (typedFilling type) rfl
  cases result with
  | error error => exact ⟨.error error, isFate, ended.bind_error⟩
  | ok filling =>
    obtain ⟨filling', counted, isOutline⟩ := countTruncated_ok engine options filling fields.length
    refine ⟨.ok filling'.output, ?_, ?_⟩
    · rw [← isFate, propertiesFate, Fate.of, ← isOutline, ← chain_output]
      rfl
    · refine ended.mono fun stack ⟨ended, path⟩ => ⟨?_, fun same => ?_⟩
      · unfold sanitizeProperties
        rw [walk_bind_of_ok _ ended, counted]
        rfl
      · unfold sanitizeProperties
        rw [walk_bind_of_ok _ (path same), counted]
        rfl

/-- What is made of the parts of a container is a new object. -/
theorem Container.asPrototype_finish {node : Node} {marker limit : Output} {parts : List Part}
    {finish : List Output → Output} (container : Container g options node marker limit parts finish)
    (outs : List Output) : (finish outs).asPrototype = some none := by
  cases container with
  | array items => rfl
  | set values => rfl
  | map entries => rfl

/-- **The sanitizer goes so**, on every large enough stack. -/
theorem Goes.ends {task : Task} {fate : Fate}
    (goes : Goes engine g options task seen fate seen') :
    TaskEnds engine g options task seen fate seen' := by
  induction goes with
  | rests isTurn =>
    refine ⟨.ok _, rfl, endsAs_call ?_⟩
    rw [isTurn]
    exact endsAs_const rfl
  | @fails _ _ _ _ error isTurn =>
    refine ⟨.error error, rfl, endsAs_call ?_⟩
    rw [isTurn]
    exact endsAs_const rfl
  | endless notRedacted endless =>
    exact ⟨.error .stackOverflow, rfl, Eventually.of_forall fun stack =>
      ⟨sanitizeValue_endless addDelete stack endless notRedacted, fun _ =>
        sanitizeValue_endless onPath stack endless notRedacted⟩⟩
  | @follows _ _ _ _ _ output _ _ isTurn _ ih =>
    obtain ⟨result, rfl, ended⟩ := ih
    refine ⟨result.map fun sanitized => .plain (output ++ [(ascii "cause", sanitized)]), ?_,
      endsAs_call ?_⟩
    · cases result with
      | ok out => rfl
      | error error => rfl
    · rw [isTurn]
      exact ended.map
  | @enters _ _ _ _ _ r parts finish _ isTurn goes ih =>
    obtain ⟨result, rfl, ended⟩ := ih
    have isFate : callFate (result.map finish) = partsFate result := by
      obtain ⟨_, _, _, _, _, _, container⟩ := turn_enters isTurn
      cases result with
      | error error => rfl
      | ok outs => exact congrArg Fate.returns (container.asPrototype_finish outs)
    refine ⟨result.map finish, isFate, endsAs_call ?_⟩
    rw [isTurn, ← isFate, ← leave_eq]
    exact ended.map.enter goes.grows
  | @opens _ _ _ _ _ r type fields _ isTurn goes ih =>
    obtain ⟨result, isFate, ended⟩ := endsAs_properties ih
    refine ⟨result, isFate, endsAs_call ?_⟩
    rw [isTurn, ← isFate, ← leave_eq]
    exact ended.enter goes.grows
  | noParts => exact ⟨.ok [], rfl, endsAs_const rfl⟩
  | part first rest ihFirst ihRest =>
    obtain ⟨firstResult, isFirst, endedFirst⟩ := ihFirst
    obtain ⟨result, rfl, ended⟩ := ihRest
    cases firstResult with
    | error error => cases isFirst
    | ok out =>
      refine ⟨result.map (out :: ·), ?_, ?_⟩
      · cases result with
        | ok outs => rfl
        | error error => rfl
      · simp only [List.mapM_cons]
        exact endedFirst.bind ended.map first.grows rest.grows
  | partThrows first ih =>
    obtain ⟨result, isFate, ended⟩ := ih
    cases result with
    | ok out => cases isFate
    | error error =>
      refine ⟨.error error, rfl, ?_⟩
      simp only [List.mapM_cons]
      exact ended.bind_error
  | @unprintable _ error _ _ =>
    refine ⟨.error error, rfl, ?_⟩
    simp only [List.mapM_cons]
    exact endsAs_const rfl
  | noProperties =>
    intro filling isOutline
    subst isOutline
    exact ⟨.ok filling, rfl, endsAs_const rfl⟩
  | @property _ key v fields _ _ _ _ _ _ _ _ value assigned rest ihValue ihRest =>
    intro filling isOutline
    subst isOutline
    obtain ⟨result, rfl, ended⟩ := ihValue
    rw [← asPrototype_assignedOutput engine] at assigned
    obtain ⟨filling', isAssigned, isOutline⟩ := assign_ok_of_outline assigned
    obtain ⟨result', isFate, endedRest⟩ := ihRest filling' isOutline
    refine ⟨result', isFate, ?_⟩
    have written := endsAs_property filling ended
    rw [isAssigned] at written
    simp only [List.foldlM_cons]
    exact written.bind endedRest value.grows rest.grows
  | @refused _ key v fields _ _ _ _ _ value refused ih =>
    intro filling isOutline
    subst isOutline
    obtain ⟨result, rfl, ended⟩ := ih
    obtain ⟨error, isError⟩ := assign_error_of_refuses engine refused (assignedOutput engine result)
    have written := endsAs_property filling ended
    rw [isError] at written
    refine ⟨.error error, rfl, ?_⟩
    simp only [List.foldlM_cons]
    exact written.bind_error

end

/-! ## One way -/

section
variable {engine : Engine} {g : Graph} {options : RequiredOptions} {depth : Nat} {seen seen' : List Nat}

theorem Goes.unique_call {v : Value} {key : Option JsString} {fate fate' : Fate} {seen'' : List Nat}
    (goes : Goes engine g options (.call depth v key) seen fate seen')
    (goes' : Goes engine g options (.call depth v key) seen fate' seen'') :
    fate' = fate ∧ seen'' = seen' := by
  obtain ⟨result, rfl, ended⟩ := goes.ends
  obtain ⟨result', rfl, ended'⟩ := goes'.ends
  obtain ⟨stack, ⟨ran, _⟩, ⟨ran', _⟩⟩ := (ended.and ended').exists
  obtain ⟨rfl, rfl⟩ := Prod.mk.inj (ran.symm.trans ran')
  exact ⟨rfl, rfl⟩

/-- **A task goes in one way.** -/
theorem Goes.unique {task : Task} {fate fate' : Fate} {seen'' : List Nat}
    (goes : Goes engine g options task seen fate seen')
    (goes' : Goes engine g options task seen fate' seen'') : fate' = fate ∧ seen'' = seen' := by
  induction goes generalizing fate' seen'' with
  | rests isTurn => exact (Goes.rests isTurn).unique_call goes'
  | fails isTurn => exact (Goes.fails isTurn).unique_call goes'
  | endless notRedacted endless => exact (Goes.endless notRedacted endless).unique_call goes'
  | follows isTurn goes _ => exact (Goes.follows isTurn goes).unique_call goes'
  | enters isTurn goes _ => exact (Goes.enters isTurn goes).unique_call goes'
  | opens isTurn goes _ => exact (Goes.opens isTurn goes).unique_call goes'
  | noParts =>
    cases goes' with
    | noParts => exact ⟨rfl, rfl⟩
  | part first _ _ ih =>
    cases goes' with
    | part first' rest =>
      obtain ⟨_, rfl⟩ := first.unique_call first'
      exact ih rest
    | partThrows first' => cases (first.unique_call first').1
  | partThrows first _ =>
    cases goes' with
    | part first' rest => cases (first.unique_call first').1
    | partThrows first' => exact ⟨rfl, (first.unique_call first').2⟩
  | unprintable =>
    cases goes' with
    | unprintable => exact ⟨rfl, rfl⟩
  | noProperties =>
    cases goes' with
    | noProperties => exact ⟨rfl, rfl⟩
  | property value assigned _ _ ih =>
    cases goes' with
    | property value' assigned' rest =>
      obtain ⟨rfl, rfl⟩ := value.unique_call value'
      cases assigned.symm.trans assigned'
      exact ih rest
    | refused _ refused =>
      rw [assign_eq_none.mpr refused] at assigned
      cases assigned
  | refused value refused _ =>
    cases goes' with
    | property _ assigned _ =>
      rw [assign_eq_none.mpr refused] at assigned
      cases assigned
    | refused value' _ => exact ⟨rfl, (value.unique_call value').2⟩

end

/-! ## Without an end of the stack -/

/-- **The sanitizer on a stack without an end.** -/
noncomputable def rendering (engine : Engine) (g : Graph) (options : RequiredOptions) (depth : Nat)
    (v : Value) (key : Option JsString) : Sanitizing Output :=
  limit fun stack => sanitizeValue engine g addDelete options stack depth v key

section
variable {engine : Engine} {g : Graph} {options : RequiredOptions} {depth : Nat} {seen seen' : List Nat}

theorem tends_rendering (depth : Nat) {v : Value} (key : Option JsString) (within : v.Within g.size) :
    Tends (fun stack => sanitizeValue engine g addDelete options stack depth v key)
      (rendering engine g options depth v key) := by
  refine tends_limit fun seen => ?_
  obtain ⟨fate, seen', goes⟩ := exists_goes engine options seen depth key within
  obtain ⟨result, _, ended⟩ := goes.ends
  exact ⟨(result, seen'), ended.mono fun stack ⟨ran, _⟩ => ran⟩

/-- A call ends as it goes. -/
theorem Goes.renders {v : Value} {key : Option JsString} {fate : Fate} (within : v.Within g.size)
    (goes : Goes engine g options (.call depth v key) seen fate seen') :
    ∃ result, callFate result = fate ∧
      (rendering engine g options depth v key).walk seen = (result, seen') := by
  obtain ⟨result, isFate, ended⟩ := goes.ends
  exact ⟨result, isFate,
    (tends_rendering depth key within).walk_eq (ended.mono fun stack ⟨ran, _⟩ => ran)⟩

theorem tends_sanitizeProperty (depth : Nat) (output : Filling) {field : JsString × Value}
    (within : field.2.Within g.size) :
    Tends (fun stack => sanitizeProperty engine (sanitizeValue engine g addDelete options stack) depth
        output field)
      (sanitizeProperty engine (rendering engine g options) depth output field) := by
  have tried : Tends
      (fun stack => sanitizeValue engine g addDelete options stack (depth + 1) field.2 (some field.1) >>=
        fun out => MonadExcept.ofExcept (output.assign engine field.1 out))
      (rendering engine g options (depth + 1) field.2 (some field.1) >>=
        fun out => MonadExcept.ofExcept (output.assign engine field.1 out)) :=
    (tends_rendering (depth + 1) (some field.1) within).bind fun out => tends_const _
  exact tried.tryCatch _

/-- What is done in a turn, with the values of the graph. -/
theorem tends_perform (engine : Engine) (options : RequiredOptions) (depth : Nat) (seen : List Nat)
    {v : Value} (key : Option JsString) (within : v.Within g.size) :
    Tends (fun stack => perform engine addDelete options (sanitizeValue engine g addDelete options stack)
        depth (turn g options depth seen v key))
      (perform engine addDelete options (rendering engine g options) depth
        (turn g options depth seen v key)) := by
  cases isTurn : turn g options depth seen v key with
  | rests out => exact tends_const _
  | fails error => exact tends_const _
  | follows output cause =>
    have inside : cause.Within g.size := (turn_follows_cause isTurn).within within
    exact (tends_rendering (depth + 1) _ inside).bind fun sanitized => tends_const _
  | enters r parts finish =>
    obtain ⟨_, inside⟩ := within_enters within isTurn
    have parted : Tends
        (fun stack => parts.mapM (sanitizePart (sanitizeValue engine g addDelete options stack) depth))
        (parts.mapM (sanitizePart (rendering engine g options) depth)) := by
      refine tends_mapM fun part mem => ?_
      cases part with
      | value v key => exact tends_rendering (depth + 1) key (inside v key mem)
      | unprintable error => exact tends_const _
    have finished : Tends
        (fun stack => parts.mapM (sanitizePart (sanitizeValue engine g addDelete options stack) depth) >>=
          fun outs => pure (finish outs))
        (parts.mapM (sanitizePart (rendering engine g options) depth) >>= fun outs =>
          pure (finish outs)) :=
      parted.bind fun outs => tends_const _
    exact finished.addDelete r
  | opens r type fields =>
    obtain ⟨_, inside⟩ := within_opens within isTurn
    have filled : Tends
        (fun stack => (visible options MAX_OBJECT_KEYS fields).foldlM
          (sanitizeProperty engine (sanitizeValue engine g addDelete options stack) depth)
          (typedFilling type))
        ((visible options MAX_OBJECT_KEYS fields).foldlM
          (sanitizeProperty engine (rendering engine g options) depth) (typedFilling type)) :=
      tends_foldlM (fun field mem output => tends_sanitizeProperty depth output (inside field mem)) _
    have finished : Tends
        (fun stack => sanitizeProperties engine options (sanitizeValue engine g addDelete options stack)
          depth type fields)
        (sanitizeProperties engine options (rendering engine g options) depth type fields) := by
      unfold sanitizeProperties
      exact filled.bind fun output => tends_const _
    exact finished.addDelete r

/-- **Every call performs its turn.** -/
theorem rendering_step {v : Value} {key : Option JsString} (within : v.Within g.size) :
    (rendering engine g options depth v key).walk seen =
      (perform engine addDelete options (rendering engine g options) depth
        (turn g options depth seen v key)).walk seen := by
  refine (tends_rendering depth key within).walk_eq (eventually_succ ?_)
  refine (tends_perform engine options depth seen key within seen).mono fun stack same => ?_
  rw [sanitizeValue, walk_sanitizeStep, same]

/-! ### What has returned -/

variable {v : Value} {key : Option JsString} {out : Output}

theorem rendering_follows {output : List (JsString × Output)} {cause : Value} (within : v.Within g.size)
    (isTurn : turn g options depth seen v key = .follows output cause)
    (ran : (rendering engine g options depth v key).walk seen = (.ok out, seen')) :
    ∃ sanitized, (rendering engine g options (depth + 1) cause (some (ascii "cause"))).walk seen =
        (.ok sanitized, seen') ∧ out = .plain (output ++ [(ascii "cause", sanitized)]) := by
  rw [rendering_step within, isTurn] at ran
  obtain ⟨sanitized, seen₁, ranCause, ran⟩ := walk_bind_eq_ok.mp ran
  cases ran
  exact ⟨sanitized, ranCause, rfl⟩

theorem rendering_enters {r : Nat} {parts : List Part} {finish : List Output → Output}
    (within : v.Within g.size) (isTurn : turn g options depth seen v key = .enters r parts finish)
    (ran : (rendering engine g options depth v key).walk seen = (.ok out, seen')) :
    ∃ outs seen₁, (parts.mapM (sanitizePart (rendering engine g options) depth)).walk (r :: seen) =
        (.ok outs, seen₁) ∧ out = finish outs := by
  rw [rendering_step within, isTurn] at ran
  obtain ⟨seen₁, ran⟩ := walk_addDelete_eq_ok ran
  obtain ⟨outs, seen₂, ranAll, ran⟩ := walk_bind_eq_ok.mp ran
  cases ran
  exact ⟨outs, _, ranAll, rfl⟩

theorem rendering_opens {r : Nat} {type : Value} {fields : List (JsString × Value)}
    (within : v.Within g.size) (isTurn : turn g options depth seen v key = .opens r type fields)
    (ran : (rendering engine g options depth v key).walk seen = (.ok out, seen')) :
    ∃ filling filling' seen₁,
      ((visible options MAX_OBJECT_KEYS fields).foldlM
        (sanitizeProperty engine (rendering engine g options) depth) (typedFilling type)).walk (r :: seen) =
          (.ok filling, seen₁) ∧
      countTruncated engine options filling fields.length = .ok filling' ∧ out = filling'.output := by
  rw [rendering_step within, isTurn] at ran
  obtain ⟨seen₁, ran⟩ := walk_addDelete_eq_ok ran
  obtain ⟨filling, seen₂, ranAll, ran⟩ := walk_bind_eq_ok.mp ran
  obtain ⟨filling', seen₃, ranCount, ran⟩ := walk_bind_eq_ok.mp ran
  rw [walk_ofExcept] at ranCount
  cases ran
  exact ⟨filling, filling', seen₂, ranAll, (Prod.mk.inj ranCount).1, rfl⟩

/-- Of the properties of a record the first is written as it goes. -/
theorem Goes.filled {key : JsString} {fields : List (JsString × Value)} {fate : Fate}
    {seen'' : List Nat} (value : Goes engine g options (.call (depth + 1) v (some key)) seen fate seen')
    (within : v.Within g.size) {filling filling' : Filling}
    (ran : (((key, v) :: fields).foldlM (sanitizeProperty engine (rendering engine g options) depth)
      filling).walk seen = (.ok filling', seen'')) :
    ∃ result filling₁, callFate result = fate ∧
      (rendering engine g options (depth + 1) v (some key)).walk seen = (result, seen') ∧
      filling.assign engine key (assignedOutput engine result) = .ok filling₁ ∧
      (fields.foldlM (sanitizeProperty engine (rendering engine g options) depth) filling₁).walk seen' =
        (.ok filling', seen'') := by
  obtain ⟨result, isFate, ranGoes⟩ := value.renders within
  obtain ⟨filling₁, seen₁, ranFirst, ranRest⟩ := foldlM_cons_eq_ok.mp ran
  obtain ⟨result', ranValue, isAssigned⟩ := sanitizeProperty_eq_ok ranFirst
  obtain ⟨rfl, rfl⟩ := Prod.mk.inj (ranGoes.symm.trans ranValue)
  exact ⟨result, filling₁, isFate, ranValue, isAssigned, ranRest⟩

end

end QuietStorage.Logger
