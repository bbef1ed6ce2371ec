import QuietStorage.Lib.Async

/-!
# Lib.Interpret — programs whose commands are programs

`interpret` runs a program on a part of a larger state, with a program of the larger state in the
place of each of its commands: what the program awaits then takes steps of its own, and what it throws
is thrown where it is awaited. The laws say that this goes through every way to build a program
(`interpret_bind`, `interpret_tryCatch`, `interpret_send`), and `meets_interpret_bind`,
`meets_interpret_tryCatch` and so on are the rules of `Lib.Async` for programs that run so.

A program that keeps a discipline on the part needs no second proof on the whole: when the discipline
of the whole is one of the part (`Discipline.Lifts`) and each command is performed on the part
(`ServesPart`), it keeps that one too (`meets_interpret_of_part`).
-/

set_option autoImplicit false

namespace QuietStorage.Lib

open Async

section
variable {σ τ C C' : Type} {A : C → Type} {A' : C' → Type} {ε α β : Type}

namespace Async

/-- The result of a program, thrown or not. -/
def attempt : Async σ C A ε α → Async σ C A ε (Except ε α)
  | .pure a => .pure (.ok a)
  | .throw e => .pure (.error e)
  | .sync f k => .sync f fun s => (k s).attempt
  | .await c k => .await c fun r => (k r).attempt

/-- The program on the part of the state that `part` reads and `put` writes, with `service c` in the
place of the command `c`. -/
def interpret (part : τ → σ) (put : τ → σ → τ) (service : (c : C) → Async τ C' A' ε (A c)) :
    Async σ C A ε α → Async τ C' A' ε α
  | .pure a => .pure a
  | .throw e => .throw e
  | .sync f k => .sync (fun s => put s (f (part s))) fun s => (k (part s)).interpret part put service
  | .await c k => (service c).attempt.bind fun r => (k r).interpret part put service

end Async

theorem bind_assoc_async {γ : Type} (m : Async σ C A ε α) (f : α → Async σ C A ε β)
    (g : β → Async σ C A ε γ) : (m.bind f).bind g = m.bind fun a => (f a).bind g := by
  induction m with
  | pure a => rfl
  | throw e => rfl
  | sync h k ih => simp only [Async.bind, ih]
  | await c k ih => simp only [Async.bind, ih]

/-- An attempt does not throw, so a handler is about what follows it. -/
theorem tryCatch_attempt_bind (m : Async σ C A ε α) (f : Except ε α → Async σ C A ε β)
    (h : ε → Async σ C A ε β) :
    (m.attempt.bind f).tryCatch h = m.attempt.bind fun r => (f r).tryCatch h := by
  induction m with
  | pure a => rfl
  | throw e => rfl
  | sync g k ih => simp only [attempt, Async.bind, Async.tryCatch, ih]
  | await c k ih => simp only [attempt, Async.bind, Async.tryCatch, ih]

/-- What was thrown is thrown again. -/
theorem attempt_bind_rethrow (m : Async σ C A ε α) :
    (m.attempt.bind fun
      | .ok a => .pure a
      | .error e => .throw e) = m := by
  induction m with
  | pure a => rfl
  | throw e => rfl
  | sync g k ih => simp only [attempt, Async.bind, ih]
  | await c k ih => simp only [attempt, Async.bind, ih]

variable {part : τ → σ} {put : τ → σ → τ} {service : (c : C) → Async τ C' A' ε (A c)}

theorem interpret_bind (m : Async σ C A ε α) (f : α → Async σ C A ε β) :
    (m >>= f).interpret part put service =
      m.interpret part put service >>= fun a => (f a).interpret part put service := by
  have law : (m.bind f).interpret part put service =
      (m.interpret part put service).bind fun a => (f a).interpret part put service := by
    induction m with
    | pure a => rfl
    | throw e => rfl
    | sync g k ih => simp only [Async.bind, interpret, ih]
    | await c k ih => simp only [Async.bind, interpret, ih, bind_assoc_async]
  exact law

theorem interpret_tryCatch (m : Async σ C A ε α) (h : ε → Async σ C A ε α) :
    (MonadExcept.tryCatch m h : Async σ C A ε α).interpret part put service =
      MonadExcept.tryCatch (m.interpret part put service)
        fun e => (h e).interpret part put service := by
  have law : (m.tryCatch h).interpret part put service =
      (m.interpret part put service).tryCatch fun e => (h e).interpret part put service := by
    induction m with
    | pure a => rfl
    | throw e => rfl
    | sync g k ih => simp only [Async.tryCatch, interpret, ih]
    | await c k ih => simp only [Async.tryCatch, interpret, ih, tryCatch_attempt_bind]
  exact law

theorem interpret_send (c : C) :
    (send c : Async σ C A ε (A c)).interpret part put service = service c := by
  refine Eq.trans ?_ (attempt_bind_rethrow (service c))
  simp only [send, interpret]
  congr 1
  funext r
  cases r <;> rfl

/-! ## The rules -/

variable {D : Discipline τ} {t : Nat} {Choice : Type}
  {perform : τ → (c : C') → Choice → Option (τ × Except ε (A' c))} {s : τ}

theorem meets_interpret_bind {Q₁ : τ → Except ε α → Prop} {Q : τ → Except ε β → Prop}
    {m : Async σ C A ε α} {f : α → Async σ C A ε β} (inv : D.Inv s)
    (first : Meets D t perform Q₁ (m.interpret part put service) s)
    (next : ∀ s' a, D.Inv s' → D.Grows s s' → Q₁ s' (.ok a) →
      Meets D t perform Q ((f a).interpret part put service) s')
    (thrown : ∀ s' e, D.Inv s' → D.Grows s s' → Q₁ s' (.error e) → Q s' (.error e)) :
    Meets D t perform Q ((m >>= f).interpret part put service) s := by
  rw [interpret_bind]
  exact meets_bind inv first next thrown

theorem meets_interpret_tryCatch {Q₁ Q : τ → Except ε α → Prop} {m : Async σ C A ε α}
    {h : ε → Async σ C A ε α} (inv : D.Inv s)
    (body : Meets D t perform Q₁ (m.interpret part put service) s)
    (ended : ∀ s' a, D.Inv s' → D.Grows s s' → Q₁ s' (.ok a) → Q s' (.ok a))
    (caught : ∀ s' e, D.Inv s' → D.Grows s s' → Q₁ s' (.error e) →
      Meets D t perform Q ((h e).interpret part put service) s') :
    Meets D t perform Q
      ((MonadExcept.tryCatch m h : Async σ C A ε α).interpret part put service) s := by
  rw [interpret_tryCatch]
  exact meets_tryCatch inv body ended caught

theorem meets_interpret_send {c : C} {Q : τ → Except ε (A c) → Prop}
    (served : Meets D t perform Q (service c) s) :
    Meets D t perform Q ((send c : Async σ C A ε (A c)).interpret part put service) s := by
  rw [interpret_send]
  exact served

/-- A library function neither reads the state nor awaits. -/
theorem meets_interpret_ofExcept {r : Except ε α} {Q : τ → Except ε α → Prop} (ended : Q s r) :
    Meets D t perform Q
      ((MonadExcept.ofExcept r : Async σ C A ε α).interpret part put service) s := by
  cases r with
  | ok a => exact ended
  | error e => exact ended

theorem meets_interpret_ofExcept_bind {r : Except ε α} {Q : τ → Except ε β → Prop}
    {f : α → Async σ C A ε β}
    (next : ∀ a, r = .ok a → Meets D t perform Q ((f a).interpret part put service) s)
    (thrown : ∀ e, r = .error e → Q s (.error e)) :
    Meets D t perform Q
      ((MonadExcept.ofExcept r >>= f : Async σ C A ε β).interpret part put service) s := by
  cases r with
  | ok a => exact next a rfl
  | error e => exact thrown e rfl

/-- Reading the part leaves the whole as it is. -/
theorem meets_interpret_get_bind {Q : τ → Except ε β → Prop} {f : σ → Async σ C A ε β}
    (inv : D.Inv s) (same : put s (part s) = s)
    (next : Meets D t perform Q ((f (part s)).interpret part put service) s) :
    Meets D t perform Q ((get >>= f : Async σ C A ε β).interpret part put service) s := by
  have read : D.Inv (put s (part s)) ∧ D.Acts t s (put s (part s)) ∧
      Meets D t perform Q ((f (part s)).interpret part put service) (put s (part s)) := by
    rw [same]
    exact ⟨inv, .refl t s, next⟩
  exact read

theorem meets_interpret_modify_bind {Q : τ → Except ε β → Prop} {f : σ → σ}
    {k : Unit → Async σ C A ε β} (inv : D.Inv (put s (f (part s))))
    (acts : D.Acts t s (put s (f (part s))))
    (next : Meets D t perform Q ((k ()).interpret part put service) (put s (f (part s)))) :
    Meets D t perform Q ((modify f >>= k : Async σ C A ε β).interpret part put service) s :=
  ⟨inv, acts, next⟩

theorem meets_interpret_modify {Q : τ → Except ε Unit → Prop} {f : σ → σ}
    (inv : D.Inv (put s (f (part s)))) (acts : D.Acts t s (put s (f (part s))))
    (ended : Q (put s (f (part s))) (.ok ())) :
    Meets D t perform Q
      ((modify f : Async σ C A ε Unit).interpret part put service) s :=
  ⟨inv, acts, ended⟩

/-! ## Programs of a part -/

/-- What a program was attempted with, and what follows it. -/
theorem meets_attempt_bind {Q₁ : τ → Except ε α → Prop} {Q : τ → Except ε β → Prop}
    {m : Async τ C' A' ε α} {f : Except ε α → Async τ C' A' ε β} (inv : D.Inv s)
    (first : Meets D t perform Q₁ m s)
    (next : ∀ s' r, D.Inv s' → D.Grows s s' → Q₁ s' r → Meets D t perform Q (f r) s') :
    Meets D t perform Q (m.attempt.bind f) s := by
  induction m generalizing s with
  | pure a => exact next s (.ok a) inv (D.refl s) first
  | throw e => exact next s (.error e) inv (D.refl s) first
  | sync g k ih =>
    obtain ⟨inv', acts, rest⟩ := first
    exact ⟨inv', acts, ih s inv' rest fun s' r inv grown => next s' r inv (D.trans acts.grows grown)⟩
  | await c k ih =>
    refine MeetsAwait.imp first fun r s' inv' grown rest => ?_
    exact ih r inv' rest fun s'' r inv grown' => next s'' r inv (D.trans grown grown')

/-- A discipline of the whole is one of the part, as far as the part goes; and a change of the part
that keeps the one keeps the other. -/
structure Discipline.Lifts (D : Discipline σ) (D' : Discipline τ) (part : τ → σ)
    (put : τ → σ → τ) : Prop where
  part_put : ∀ s x, part (put s x) = x
  inv : ∀ s, D'.Inv s → D.Inv (part s)
  grows : ∀ s s', D'.Grows s s' → D.Grows (part s) (part s')
  keeps : ∀ t s s', D'.Keeps t s s' → D.Keeps t (part s) (part s')
  inv_put : ∀ s x, D'.Inv s → D.Inv x → D.Grows (part s) x → D'.Inv (put s x)
  acts_put : ∀ t s x, D'.Inv s → D.Acts t (part s) x → D'.Acts t s (put s x)
  keeps_put : ∀ t s x, D'.Keeps t s (put s x)

variable {E : Discipline σ} {Choice₀ : Type}
  {perform₀ : σ → (c : C) → Choice₀ → Option (σ × Except ε (A c))}

/-- The service of a command is the command, performed on the part. -/
def ServesPart (D : Discipline τ) (t : Nat)
    (perform : τ → (c : C') → Choice → Option (τ × Except ε (A' c)))
    (perform₀ : σ → (c : C) → Choice₀ → Option (σ × Except ε (A c))) (part : τ → σ)
    (put : τ → σ → τ) (service : (c : C) → Async τ C' A' ε (A c)) : Prop :=
  ∀ c s (Q : τ → Except ε (A c) → Prop),
    (∀ s₁, D.Rely t s s₁ → D.Inv s₁ → ∀ choice x r, perform₀ (part s₁) c choice = some (x, r) →
      D.Inv (put s₁ x) ∧ D.Acts t s₁ (put s₁ x) ∧
        ∀ s₃, D.Rely t (put s₁ x) s₃ → D.Inv s₃ → Q s₃ r) →
    Meets D t perform Q (service c) s

/-- **A program that keeps the discipline of the part keeps that of the whole**, and leaves alone
what its task has elsewhere. -/
theorem meets_interpret_of_part (lifts : E.Lifts D part put)
    (serves : ServesPart D t perform perform₀ part put service) {m : Async σ C A ε α}
    {Q : σ → Except ε α → Prop} (inv : D.Inv s) (meets : Meets E t perform₀ Q m (part s)) :
    Meets D t perform (fun s' r => Q (part s') r ∧ D.Rely t s s')
      (m.interpret part put service) s := by
  induction m generalizing s with
  | pure a => exact ⟨meets, .refl t s⟩
  | throw e => exact ⟨meets, .refl t s⟩
  | sync f k ih =>
    obtain ⟨inv_, acts, rest⟩ := meets
    have inv' := lifts.inv_put s _ inv inv_ acts.grows
    have acts' := lifts.acts_put t s _ inv acts
    refine ⟨inv', acts', ?_⟩
    rw [← lifts.part_put s (f (part s))] at rest
    refine (ih (part s) inv' rest).imp inv' fun s' r _ _ ended => ⟨ended.1, ?_⟩
    exact Discipline.Rely.trans ⟨acts'.grows, lifts.keeps_put t s _⟩ ended.2
  | await c k ih =>
    have served : Meets D t perform
        (fun s' r => Meets E t perform₀ Q (k r) (part s') ∧ D.Rely t s s') (service c) s := by
      refine serves c s _ fun s₁ rely inv₁ choice x r performed => ?_
      have relyPart : E.Rely t (part s) (part s₁) :=
        ⟨lifts.grows _ _ rely.grows, lifts.keeps t _ _ rely.keeps⟩
      obtain ⟨inv₂, acts, later⟩ := meets (part s₁) relyPart (lifts.inv _ inv₁) choice x r performed
      have acts' := lifts.acts_put t s₁ x inv₁ acts
      refine ⟨lifts.inv_put s₁ x inv₁ inv₂ acts.grows, acts', fun s₃ rely₃ inv₃ => ⟨?_, ?_⟩⟩
      · refine later (part s₃) ?_ (lifts.inv _ inv₃)
        have relyPut : E.Rely t (part (put s₁ x)) (part s₃) :=
          ⟨lifts.grows _ _ rely₃.grows, lifts.keeps t _ _ rely₃.keeps⟩
        rw [lifts.part_put] at relyPut
        exact relyPut
      · exact rely.trans (Discipline.Rely.trans ⟨acts'.grows, lifts.keeps_put t s₁ x⟩ rely₃)
    refine meets_attempt_bind inv served fun s' r inv' _ ended => ?_
    refine (ih r inv' ended.1).imp inv' fun s'' r' _ _ ended' => ⟨ended'.1, ?_⟩
    exact ended.2.trans ended'.2

end

end QuietStorage.Lib
