import Mathlib.Data.List.Forall2
import Mathlib.Order.Filter.AtTopBot.Basic
import Mathlib.Order.Filter.Finite

/-!
# Lib.Traversal — walks through a graph that remember where they are

A `Traversal` is a program that reads and changes the list of the nodes which it has entered and not
left, and that may throw. `walk` runs it, with one rule for each way to build one.

**Two ways to enter a node.** `addDelete` puts the node on the list, runs the body and takes the node
off again; an exception that goes through skips the last step, and what catches it goes on with a
list that is longer than before (`Grows`). `onPath` leaves the list as it was however the body ends, so
the list is the path from the root.

**Enough of a budget.** A recursion that is cut off after so many calls is spoken about for all budgets
that are large enough (`∀ᶠ n in atTop`). `EndsAs` says how a program comes to end in both ways of
entering: if the first leaves the list as it was, the second ends alike. `Tends` relates programs with
budgets to one without, which is their `limit` if they settle. Both have a rule for each way to build a
program.
-/

set_option autoImplicit false

namespace QuietStorage.Lib

/-- A program that throws errors of `ε`, and keeps the nodes of `ν` that it is inside of. -/
abbrev Traversal (ν ε α : Type) := ExceptT ε (StateM (List ν)) α

namespace Traversal

variable {ν ε α β : Type}

/-- How the program ends from a list, and with which. -/
def walk (x : Traversal ν ε α) (seen : List ν) : Except ε α × List ν := x.run.run seen

/-- The list is afterwards what it was before. -/
def Keeps (x : Traversal ν ε α) (seen : List ν) : Prop := (x.walk seen).2 = seen

/-- The node is on the list while the body runs; an exception leaves it there. -/
def addDelete [BEq ν] (r : ν) (body : Traversal ν ε α) : Traversal ν ε α := do
  modify (r :: ·)
  let a ← body
  modify (·.erase r)
  pure a

/-- The node is on the list while the body runs, however it ends. -/
def onPath (r : ν) (body : Traversal ν ε α) : Traversal ν ε α :=
  ExceptT.mk fun seen => ((body.walk (r :: seen)).1, seen)

/-! ## How it runs -/

variable (s : List ν)

@[simp] theorem walk_pure (a : α) : (pure a : Traversal ν ε α).walk s = (.ok a, s) := rfl

@[simp] theorem walk_throw (e : ε) :
    (throw e : Traversal ν ε α).walk s = (.error e, s) := rfl

theorem walk_bind (x : Traversal ν ε α) (f : α → Traversal ν ε β) :
    (x >>= f).walk s =
      match x.walk s with
      | (.ok a, s') => (f a).walk s'
      | (.error e, s') => (.error e, s') := by
  have followed : (x >>= f).walk s = ExceptT.bindCont f (x.walk s).1 (x.walk s).2 := rfl
  rw [followed]
  rcases x.walk s with ⟨a | e, s'⟩
  · rfl
  · rfl

theorem walk_tryCatch (x : Traversal ν ε α) (h : ε → Traversal ν ε α) :
    (tryCatch x h).walk s =
      match x.walk s with
      | (.ok a, s') => (.ok a, s')
      | (.error e, s') => (h e).walk s' := by
  -- The handler does not depend on how the program came to its end.
  have handled : (tryCatch x h).walk s =
      walk (tryCatch (ExceptT.mk (pure (x.walk s).1)) h) (x.walk s).2 := rfl
  rw [handled]
  rcases x.walk s with ⟨a | e, s'⟩
  · rfl
  · rfl

@[simp] theorem walk_get_bind (f : List ν → Traversal ν ε β) : (get >>= f).walk s = (f s).walk s := rfl

@[simp] theorem walk_ofExcept (r : Except ε α) :
    (MonadExcept.ofExcept r : Traversal ν ε α).walk s = (r, s) := by
  cases r <;> rfl

/-- A function that has returned, and what follows it. -/
@[simp] theorem ofExcept_ok_bind (a : α) (f : α → Traversal ν ε β) :
    MonadExcept.ofExcept (.ok a) >>= f = f a := rfl

/-- What follows a function that has thrown is not done. -/
@[simp] theorem ofExcept_error_bind (e : ε) (f : α → Traversal ν ε β) :
    MonadExcept.ofExcept (.error e) >>= f = throw e := rfl

theorem walk_addDelete [BEq ν] (r : ν) (body : Traversal ν ε α) :
    (addDelete r body).walk s =
      match body.walk (r :: s) with
      | (.ok a, s') => (.ok a, s'.erase r)
      | (.error e, s') => (.error e, s') := by
  have entered : (addDelete r body).walk s = (do
      let a ← body
      modify (·.erase r)
      pure a : Traversal ν ε α).walk (r :: s) := rfl
  rw [entered, walk_bind]
  rcases body.walk (r :: s) with ⟨a | e, s'⟩
  · rfl
  · rfl

@[simp] theorem walk_onPath (r : ν) (body : Traversal ν ε α) :
    (onPath r body).walk s = ((body.walk (r :: s)).1, s) := rfl

variable {s}

/-- What follows a program that returns. -/
theorem walk_bind_of_ok {x : Traversal ν ε α} {a : α} {s' : List ν} (f : α → Traversal ν ε β)
    (returns : x.walk s = (.ok a, s')) : (x >>= f).walk s = (f a).walk s' := by
  rw [walk_bind, returns]

theorem walk_bind_of_error {x : Traversal ν ε α} {e : ε} {s' : List ν} (f : α → Traversal ν ε β)
    (throws : x.walk s = (.error e, s')) : (x >>= f).walk s = (.error e, s') := by
  rw [walk_bind, throws]

/-- How a sequence has returned. -/
theorem walk_bind_eq_ok {x : Traversal ν ε α} {f : α → Traversal ν ε β} {b : β} {s' : List ν} :
    (x >>= f).walk s = (.ok b, s') ↔
      ∃ a s₁, x.walk s = (.ok a, s₁) ∧ (f a).walk s₁ = (.ok b, s') := by
  rw [walk_bind]
  rcases x.walk s with ⟨a | e, s₁⟩
  · simp
  · simp

theorem walk_addDelete_eq_ok [BEq ν] {r : ν} {body : Traversal ν ε α} {a : α} {s' : List ν}
    (ran : (addDelete r body).walk s = (.ok a, s')) :
    ∃ s₁, body.walk (r :: s) = (.ok a, s₁) := by
  rw [walk_addDelete] at ran
  rcases isBody : body.walk (r :: s) with ⟨e | b, s₁⟩
  · rw [isBody] at ran
    cases ran
  · rw [isBody] at ran
    cases ran
    exact ⟨s₁, rfl⟩

/-! ## One after another -/

theorem mapM_congr {m : Type → Type} [Monad m] [LawfulMonad m] {γ : Type} {f : α → m β} {g : γ → m β}
    {l : List α} {l' : List γ} (same : List.Forall₂ (fun a c => f a = g c) l l') :
    l.mapM f = l'.mapM g := by
  induction same with
  | nil => rfl
  | cons first _ ih => rw [List.mapM_cons, List.mapM_cons, first, ih]

theorem foldlM_congr {m : Type → Type} [Monad m] {γ : Type} {f : β → α → m β} {g : β → γ → m β}
    {l : List α} {l' : List γ} (same : List.Forall₂ (fun a c => ∀ b, f b a = g b c) l l') (b : β) :
    l.foldlM f b = l'.foldlM g b := by
  induction same generalizing b with
  | nil => rfl
  | cons first _ ih =>
    rw [List.foldlM_cons, List.foldlM_cons, first]
    exact congrArg _ (funext ih)

/-- How a list of steps has returned. -/
theorem mapM_cons_eq_ok {f : α → Traversal ν ε β} {a : α} {l : List α} {bs : List β} {s' : List ν} :
    ((a :: l).mapM f).walk s = (.ok bs, s') ↔
      ∃ b s₁ bs', (f a).walk s = (.ok b, s₁) ∧ (l.mapM f).walk s₁ = (.ok bs', s') ∧ bs = b :: bs' := by
  rw [List.mapM_cons, walk_bind_eq_ok]
  constructor
  · rintro ⟨b, s₁, first, ran⟩
    obtain ⟨bs', s₂, rest, ended⟩ := walk_bind_eq_ok.mp ran
    cases ended
    exact ⟨b, s₁, bs', first, rest, rfl⟩
  · rintro ⟨b, s₁, bs', first, rest, rfl⟩
    exact ⟨b, s₁, first, walk_bind_eq_ok.mpr ⟨bs', s', rest, rfl⟩⟩

theorem foldlM_cons_eq_ok {f : β → α → Traversal ν ε β} {a : α} {l : List α} {b b' : β}
    {s' : List ν} :
    ((a :: l).foldlM f b).walk s = (.ok b', s') ↔
      ∃ b₁ s₁, (f b a).walk s = (.ok b₁, s₁) ∧ (l.foldlM f b₁).walk s₁ = (.ok b', s') := by
  rw [List.foldlM_cons, walk_bind_eq_ok]

theorem length_mapM {f : α → Traversal ν ε β} {l : List α} {bs : List β} {s' : List ν}
    (ran : (l.mapM f).walk s = (.ok bs, s')) : bs.length = l.length := by
  induction l generalizing s bs with
  | nil =>
    cases ran
    rfl
  | cons a l ih =>
    obtain ⟨b, s₁, bs', _, rest, rfl⟩ := mapM_cons_eq_ok.mp ran
    rw [List.length_cons, List.length_cons, ih rest]

/-- What each step of a fold preserves. -/
theorem foldlM_invariant {f : β → α → Traversal ν ε β} {P : β → Prop} {l : List α}
    (step : ∀ a ∈ l, ∀ b s b' s', P b → (f b a).walk s = (.ok b', s') → P b') {b b' : β} {s' : List ν}
    (start : P b) (ran : (l.foldlM f b).walk s = (.ok b', s')) : P b' := by
  induction l generalizing b s with
  | nil =>
    cases ran
    exact start
  | cons a l ih =>
    obtain ⟨first, rest⟩ := List.forall_mem_cons.mp step
    obtain ⟨b₁, s₁, ranFirst, ranRest⟩ := foldlM_cons_eq_ok.mp ran
    exact ih rest (first b s b₁ s₁ start ranFirst) ranRest

end Traversal

/-! ## Enough of a budget -/

/-- One call more. -/
theorem eventually_succ {P : Nat → Prop} (eventually : ∀ᶠ n in Filter.atTop, P (n + 1)) :
    ∀ᶠ n in Filter.atTop, P n := by
  rw [← Filter.map_add_atTop_eq_nat 1]
  exact eventually

namespace Traversal

variable {ν ε α β : Type}

/-! ## Lists that grow -/

/-- Some nodes are added that were not there. -/
def Grows (s s' : List ν) : Prop := ∃ added, s' = added ++ s ∧ ∀ r ∈ added, r ∉ s

/-- The list after a node is left: it is taken off, unless an exception goes through. -/
def leave [BEq ν] (r : ν) (s : List ν) : Except ε α → List ν
  | .ok _ => s.erase r
  | .error _ => s

section
variable {s s' s'' : List ν}

theorem Grows.refl (s : List ν) : Grows s s := ⟨[], rfl, nofun⟩

theorem Grows.trans (grows : Grows s s') (grows' : Grows s' s'') : Grows s s'' := by
  obtain ⟨added, rfl, fresh⟩ := grows
  obtain ⟨added', rfl, fresh'⟩ := grows'
  refine ⟨added' ++ added, (List.append_assoc ..).symm, fun r mem => ?_⟩
  rcases List.mem_append.mp mem with mem | mem
  · exact fun there => fresh' r mem (List.mem_append_right _ there)
  · exact fresh r mem

theorem Grows.subset (grows : Grows s s') {r : ν} (mem : r ∈ s) : r ∈ s' := by
  obtain ⟨added, rfl, _⟩ := grows
  exact List.mem_append_right _ mem

/-- What has grown in two steps, and not at all, has not grown in either. -/
theorem Grows.antisymm (grows : Grows s s') (grows' : Grows s' s) : s' = s := by
  obtain ⟨added, rfl, _⟩ := grows
  obtain ⟨added', same, _⟩ := grows'
  have lengths := congrArg List.length same
  simp only [List.length_append] at lengths
  have none_ : added = [] := List.eq_nil_of_length_eq_zero (by omega)
  rw [none_, List.nil_append]

/-- A node that is entered and left on the list. -/
theorem Grows.of_cons {r : ν} (fresh : r ∉ s) (grows : Grows (r :: s) s') : Grows s s' :=
  Grows.trans ⟨[r], rfl, fun _ mem => List.mem_singleton.mp mem ▸ fresh⟩ grows

theorem Grows.ne_of_cons {r : ν} (grows : Grows (r :: s) s') : s' ≠ s := by
  obtain ⟨added, rfl, _⟩ := grows
  intro same
  have lengths := congrArg List.length same
  rw [List.length_append, List.length_cons] at lengths
  omega

variable [BEq ν] [LawfulBEq ν] {r : ν}

/-- A node that is entered and taken off again. -/
theorem Grows.erase (grows : Grows (r :: s) s') : Grows s (s'.erase r) := by
  obtain ⟨added, rfl, fresh'⟩ := grows
  have notAdded : r ∉ added := fun mem => fresh' r mem (List.mem_cons_self ..)
  refine ⟨added, ?_, fun x mem there => fresh' x mem (List.mem_cons_of_mem _ there)⟩
  rw [List.erase_append_right _ notAdded, List.erase_cons_head]

/-- A node that is entered and left without a trace has been taken off, and nothing was added inside. -/
theorem Grows.eq_cons_of_erase (grows : Grows (r :: s) s') (same : s'.erase r = s) : s' = r :: s := by
  obtain ⟨added, rfl, fresh⟩ := grows
  have notAdded : r ∉ added := fun mem => fresh r mem (List.mem_cons_self ..)
  have lengths := congrArg List.length same
  rw [List.erase_append_right _ notAdded, List.erase_cons_head, List.length_append] at lengths
  have none_ : added = [] := List.eq_nil_of_length_eq_zero (by omega)
  rw [none_, List.nil_append]

end

/-! ## Both ways of entering -/

/-- A way to enter a node. -/
abbrev Enter (ν ε γ : Type) := ν → Traversal ν ε γ → Traversal ν ε γ

/-- **A program ends so with every large enough budget**; and if the list is left as it was, so does the
one that keeps the path. -/
def EndsAs [BEq ν] {γ : Type} (program : Enter ν ε γ → Nat → Traversal ν ε α) (s : List ν)
    (result : Except ε α) (s' : List ν) : Prop :=
  ∀ᶠ n in Filter.atTop, (program addDelete n).walk s = (result, s') ∧
    (s' = s → (program onPath n).walk s = (result, s))

section
variable [BEq ν] {γ : Type} {s s' s'' : List ν}

theorem endsAs_const {program : Traversal ν ε α} {result : Except ε α}
    (ended : program.walk s = (result, s)) :
    EndsAs (fun (_ : Enter ν ε γ) _ => program) s result s :=
  Filter.Eventually.of_forall fun _ => ⟨ended, fun _ => ended⟩

/-- What is made of a result, with nothing more to go through. -/
theorem EndsAs.map {x : Enter ν ε γ → Nat → Traversal ν ε α} {f : α → β} {result : Except ε α}
    (first : EndsAs x s result s') :
    EndsAs (fun enter n => x enter n >>= fun a => pure (f a)) s (result.map f) s' := by
  refine first.mono fun n ⟨ended, path⟩ => ⟨?_, fun same => ?_⟩
  · rw [walk_bind, ended]
    cases result with
    | ok a => rfl
    | error e => rfl
  · rw [walk_bind, path same]
    cases result with
    | ok a => rfl
    | error e => rfl

/-- One after another. -/
theorem EndsAs.bind {x : Enter ν ε γ → Nat → Traversal ν ε α}
    {f : Enter ν ε γ → Nat → α → Traversal ν ε β} {a : α} {result : Except ε β}
    (first : EndsAs x s (.ok a) s') (next : EndsAs (fun enter n => f enter n a) s' result s'')
    (grows : Grows s s') (grows' : Grows s' s'') :
    EndsAs (fun enter n => x enter n >>= f enter n) s result s'' := by
  filter_upwards [first, next] with n ⟨ended, path⟩ ⟨ended', path'⟩
  constructor
  · rw [walk_bind_of_ok _ ended, ended']
  · rintro rfl
    obtain rfl := grows.antisymm grows'
    rw [walk_bind_of_ok _ (path rfl), path' rfl]

theorem EndsAs.bind_error {x : Enter ν ε γ → Nat → Traversal ν ε α}
    {f : Enter ν ε γ → Nat → α → Traversal ν ε β} {e : ε} (first : EndsAs x s (.error e) s') :
    EndsAs (fun enter n => x enter n >>= f enter n) s (.error e) s' := by
  refine first.mono fun n ⟨ended, path⟩ => ⟨walk_bind_of_error _ ended, fun same => ?_⟩
  exact walk_bind_of_error _ (path same)

/-- A node is entered, and left as what is done inside ends. -/
theorem EndsAs.enter [LawfulBEq ν] {r : ν} {body : Enter ν ε γ → Nat → Traversal ν ε γ}
    {result : Except ε γ} (inside : EndsAs body (r :: s) result s') (grows : Grows (r :: s) s') :
    EndsAs (fun enter n => enter r (body enter n)) s result (leave r s' result) := by
  refine inside.mono fun n ⟨ended, path⟩ => ⟨?_, fun same => ?_⟩
  · rw [walk_addDelete, ended]
    cases result with
    | ok a => rfl
    | error e => rfl
  · cases result with
    | ok a => rw [walk_onPath, path (grows.eq_cons_of_erase same)]
    | error e => exact absurd same grows.ne_of_cons

end

/-! ## Without a budget -/

/-- From every list the programs come to do the same as one without a budget. -/
def Tends (x : Nat → Traversal ν ε α) (y : Traversal ν ε α) : Prop :=
  ∀ s, ∀ᶠ n in Filter.atTop, (x n).walk s = y.walk s

/-- The program without a budget. -/
noncomputable def limit (x : Nat → Traversal ν ε α) : Traversal ν ε α :=
  ExceptT.mk fun s =>
    haveI : Nonempty (Except ε α × List ν) := ⟨(x 0).walk s⟩
    Classical.epsilon fun ended => ∀ᶠ n in Filter.atTop, (x n).walk s = ended

theorem tends_limit {x : Nat → Traversal ν ε α}
    (settles : ∀ s, ∃ ended, ∀ᶠ n in Filter.atTop, (x n).walk s = ended) : Tends x (limit x) :=
  fun s => Classical.epsilon_spec (settles s)

theorem tends_const (x : Traversal ν ε α) : Tends (fun _ => x) x :=
  fun _ => Filter.Eventually.of_forall fun _ => rfl

/-- What large enough budgets do, the program without one does. -/
theorem Tends.walk_eq {x : Nat → Traversal ν ε α} {y : Traversal ν ε α} (tends : Tends x y) {s : List ν}
    {ended : Except ε α × List ν} (eventually : ∀ᶠ n in Filter.atTop, (x n).walk s = ended) :
    y.walk s = ended := by
  obtain ⟨n, same, isEnd⟩ := ((tends s).and eventually).exists
  exact same.symm.trans isEnd

theorem Tends.bind {x : Nat → Traversal ν ε α} {y : Traversal ν ε α} {f : Nat → α → Traversal ν ε β}
    {g : α → Traversal ν ε β} (tends : Tends x y) (next : ∀ a, Tends (fun n => f n a) (g a)) :
    Tends (fun n => x n >>= f n) (y >>= g) := by
  intro s
  rcases ran : y.walk s with ⟨e | a, s'⟩
  · filter_upwards [tends s] with n same
    rw [walk_bind_of_error _ (same.trans ran), walk_bind_of_error _ ran]
  · filter_upwards [tends s, next a s'] with n same sameNext
    rw [walk_bind_of_ok _ (same.trans ran), walk_bind_of_ok _ ran, sameNext]

theorem Tends.tryCatch {x : Nat → Traversal ν ε α} {y : Traversal ν ε α} (tends : Tends x y)
    (h : ε → Traversal ν ε α) : Tends (fun n => tryCatch (x n) h) (tryCatch y h) := by
  intro s
  filter_upwards [tends s] with n same
  rw [walk_tryCatch, walk_tryCatch, same]

theorem Tends.addDelete [BEq ν] {x : Nat → Traversal ν ε α} {y : Traversal ν ε α} (tends : Tends x y)
    (r : ν) : Tends (fun n => addDelete r (x n)) (addDelete r y) := by
  intro s
  filter_upwards [tends (r :: s)] with n same
  rw [walk_addDelete, walk_addDelete, same]

theorem tends_mapM {f : Nat → α → Traversal ν ε β} {g : α → Traversal ν ε β} {l : List α}
    (each : ∀ a ∈ l, Tends (fun n => f n a) (g a)) : Tends (fun n => l.mapM (f n)) (l.mapM g) := by
  induction l with
  | nil => exact tends_const _
  | cons a l ih =>
    obtain ⟨first, rest⟩ := List.forall_mem_cons.mp each
    simp only [List.mapM_cons]
    exact first.bind fun b => (ih rest).bind fun bs => tends_const _

theorem tends_foldlM {f : Nat → β → α → Traversal ν ε β} {g : β → α → Traversal ν ε β} {l : List α}
    (each : ∀ a ∈ l, ∀ b, Tends (fun n => f n b a) (g b a)) (b : β) :
    Tends (fun n => l.foldlM (f n) b) (l.foldlM g b) := by
  induction l generalizing b with
  | nil => exact tends_const _
  | cons a l ih =>
    obtain ⟨first, rest⟩ := List.forall_mem_cons.mp each
    simp only [List.foldlM_cons]
    exact (first b).bind fun b => ih rest b

end Traversal

end QuietStorage.Lib
