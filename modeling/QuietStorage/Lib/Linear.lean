import Mathlib.Data.List.Basic
import Mathlib.Data.List.Nodup
import Mathlib.Logic.Function.Basic
import Mathlib.Tactic.Common

/-!
# Lib.Linear — calls that overlap, as if each took place at one moment

An `Object` says what an operation does when nothing else runs: the state it leaves, and its answer.
Clients call an object in overlapping calls, and see a history of marks: calls and returns, each with
the id of its call. The history is linearizable when it is explained by one sequential order of
operations (`Linearization`): the order is a run of the object, each call that returned is in it with the
answer it returned, and a call that returned before another was made comes before it.

A call may be lost: its caller is told that it failed and does not know whether it took place. Such a
call has no return. It is in the order or it is not, at any place after its call.

**Linearization points** (`Points.linearization`). When every operation takes place at one moment between
its call and its return, the order of these moments explains the history. `Points` is the history with
these moments; a machine whose steps are steps of `Points` is linearizable.

Nothing here names a program; the modules above instantiate the object.
-/

set_option autoImplicit false

namespace QuietStorage.Lib

variable {σ Op R : Type}

/-- What an operation makes of a state, and what it answers. -/
abbrev Object (σ Op R : Type) := Op → σ → σ × R

/-- What clients see. -/
inductive Mark (Op R : Type) where
  | call (k : Nat) (op : Op)
  | ret (k : Nat) (r : R)
  /-- The caller was told that the call failed. -/
  | lost (k : Nat)
  deriving DecidableEq, Repr

/-- An operation that took place, with the id of its call. -/
structure Entry (Op R : Type) where
  id : Nat
  op : Op
  result : R

namespace Entry

/-- The mark of its call. -/
def called (e : Entry Op R) : Mark Op R := .call e.id e.op

/-- The mark of its return. -/
def returned (e : Entry Op R) : Mark Op R := .ret e.id e.result

end Entry

/-- The call returned before the other was made. -/
def Precedes (history : List (Mark Op R)) (j k : Nat) : Prop :=
  ∃ r op, List.Sublist [.ret j r, .call k op] history

section
variable (obj : Object σ Op R)

/-- The entries are a run of the object, one after the other. -/
def Legal : σ → List (Entry Op R) → σ → Prop
  | s, [], s' => s' = s
  | s, e :: es, s' => e.result = (obj e.op s).2 ∧ Legal (obj e.op s).1 es s'

/-- The order explains the history, and leads from `s₀` to `s`. -/
structure Linearization (s₀ : σ) (history : List (Mark Op R)) (s : σ) (order : List (Entry Op R)) :
    Prop where
  legal : Legal obj s₀ order s
  nodup : (order.map Entry.id).Nodup
  called : ∀ e ∈ order, e.called ∈ history
  once : ∀ e ∈ order, ∀ op, .call e.id op ∈ history → op = e.op
  returned : ∀ k r, .ret k r ∈ history → ∃ e ∈ order, e.id = k ∧ e.result = r
  inTime : order.Pairwise fun e later => ¬Precedes history later.id e.id

/-- Some order explains the history. -/
def Linearizable (s₀ : σ) (history : List (Mark Op R)) (s : σ) : Prop :=
  ∃ order, Linearization obj s₀ history s order

end

section
variable {obj : Object σ Op R} {s₀ s : σ}

/-! ## Runs of an object -/

theorem legal_append {es es' : List (Entry Op R)} :
    Legal obj s₀ (es ++ es') s ↔ ∃ m, Legal obj s₀ es m ∧ Legal obj m es' s := by
  induction es generalizing s₀ with
  | nil =>
    constructor
    · exact fun legal => ⟨s₀, rfl, legal⟩
    · rintro ⟨m, rfl, legal⟩
      exact legal
  | cons e es ih =>
    constructor
    · rintro ⟨isResult, rest⟩
      obtain ⟨m, first, later⟩ := ih.mp rest
      exact ⟨m, ⟨isResult, first⟩, later⟩
    · rintro ⟨m, ⟨isResult, first⟩, later⟩
      exact ⟨isResult, ih.mpr ⟨m, first, later⟩⟩

theorem legal_snoc {m : σ} {es : List (Entry Op R)} {k : Nat} {op : Op} (legal : Legal obj s₀ es m) :
    Legal obj s₀ (es ++ [⟨k, op, (obj op m).2⟩]) (obj op m).1 :=
  legal_append.mpr ⟨m, legal, rfl, rfl⟩

/-- What every operation keeps, every run of the object keeps. -/
theorem Legal.keeps {P : σ → Prop} {es : List (Entry Op R)} (legal : Legal obj s₀ es s)
    (keeps : ∀ e ∈ es, ∀ s, P s → P (obj e.op s).1) (start : P s₀) : P s := by
  induction es generalizing s₀ with
  | nil =>
    cases legal
    exact start
  | cons e es ih =>
    refine ih legal.2 (fun e' among => keeps e' (List.mem_cons_of_mem _ among)) ?_
    exact keeps e (List.mem_cons_self ..) s₀ start

/-! ## Linearization points -/

/-- How far a call is: not made, called, done with an answer that it has not returned yet, or over. -/
inductive Phase (Op R : Type) where
  | idle
  | called (op : Op)
  | done (op : Op) (r : R)
  | returned

/-- One more operation that took place, now. -/
def Entry.now (obj : Object σ Op R) (k : Nat) (op : Op) (s : σ) : Entry Op R := ⟨k, op, (obj op s).2⟩

/-- A history in which each operation takes place at a moment of its own. -/
inductive Points (obj : Object σ Op R) (s₀ : σ) :
    List (Mark Op R) → List (Entry Op R) → (Nat → Phase Op R) → σ → Prop where
  | start : Points obj s₀ [] [] (fun _ => .idle) s₀
  | call {history order phases s} (k : Nat) (op : Op) (points : Points obj s₀ history order phases s)
      (isIdle : phases k = .idle) :
      Points obj s₀ (history ++ [.call k op]) order (Function.update phases k (.called op)) s
  | effect {history order phases s} (k : Nat) (op : Op)
      (points : Points obj s₀ history order phases s) (isCalled : phases k = .called op) :
      Points obj s₀ history (order ++ [.now obj k op s])
        (Function.update phases k (.done op (obj op s).2)) (obj op s).1
  | ret {history order phases s} (k : Nat) (op : Op) (r : R)
      (points : Points obj s₀ history order phases s) (isDone : phases k = .done op r) :
      Points obj s₀ (history ++ [.ret k r]) order (Function.update phases k .returned) s
  | lost {history order phases s} (k : Nat) (points : Points obj s₀ history order phases s) :
      Points obj s₀ (history ++ [.lost k]) order phases s

/-- What the phase of a call says of the history and of the order. -/
def Phase.Means (history : List (Mark Op R)) (order : List (Entry Op R)) (k : Nat) :
    Phase Op R → Prop
  | .idle => (∀ op, .call k op ∉ history) ∧ ∀ r, .ret k r ∉ history
  | .called op => (∀ op', .call k op' ∈ history ↔ op' = op) ∧ (∀ e ∈ order, e.id ≠ k) ∧
      ∀ r, .ret k r ∉ history
  | .done op r => ⟨k, op, r⟩ ∈ order
  | .returned => True

/-- The mark at the end of a history precedes nothing. -/
theorem precedes_snoc {history : List (Mark Op R)} {mark : Mark Op R} {j k : Nat} :
    Precedes (history ++ [mark]) j k ↔
      Precedes history j k ∨ (∃ op, mark = .call k op) ∧ ∃ r, .ret j r ∈ history := by
  constructor
  · rintro ⟨r, op, sub⟩
    obtain ⟨l₁, l₂, split, sub₁, sub₂⟩ := List.sublist_append_iff.mp sub
    rcases List.sublist_singleton.mp sub₂ with rfl | rfl
    · rw [List.append_nil] at split
      exact .inl ⟨r, op, split ▸ sub₁⟩
    · have ends : [.ret j r] ++ [.call k op] = l₁ ++ [mark] := split
      obtain ⟨rfl, isMark⟩ := List.append_inj' ends rfl
      cases isMark
      exact .inr ⟨⟨op, rfl⟩, r, List.singleton_sublist.mp sub₁⟩
  · rintro (⟨r, op, sub⟩ | ⟨⟨op, rfl⟩, r, among⟩)
    · exact ⟨r, op, sub.trans (List.sublist_append_left ..)⟩
    · exact ⟨r, op, List.Sublist.append (List.singleton_sublist.mpr among) (List.Sublist.refl _)⟩

/-- One more mark: a return is the one of an entry, and a call is not the one of an entry. -/
theorem Linearization.mark {history : List (Mark Op R)} {order : List (Entry Op R)}
    (explains : Linearization obj s₀ history s order) (mark : Mark Op R)
    (returned : ∀ k r, mark = .ret k r → ∃ e ∈ order, e.id = k ∧ e.result = r)
    (called : ∀ k op, mark = .call k op → ∀ e ∈ order, e.id ≠ k) :
    Linearization obj s₀ (history ++ [mark]) s order where
  legal := explains.legal
  nodup := explains.nodup
  called e among := List.mem_append_left _ (explains.called e among)
  once e among op isCall := by
    rcases List.mem_append.mp isCall with before | now
    · exact explains.once e among op before
    · exact absurd rfl (called _ op (List.mem_singleton.mp now).symm e among)
  returned k r among := by
    rcases List.mem_append.mp among with before | now
    · exact explains.returned k r before
    · exact returned k r (List.mem_singleton.mp now).symm
  inTime := by
    refine explains.inTime.imp_of_mem fun {e later} isIn _ notBefore => ?_
    rw [precedes_snoc]
    rintro (before | ⟨⟨op, isCall⟩, _⟩)
    · exact notBefore before
    · exact called _ op isCall e isIn rfl

/-- One more operation, of a call that was made and has not returned. -/
theorem Linearization.entry {history : List (Mark Op R)} {order : List (Entry Op R)} {k : Nat}
    {op : Op} (explains : Linearization obj s₀ history s order)
    (wasCalled : ∀ op', .call k op' ∈ history ↔ op' = op) (notYet : ∀ e ∈ order, e.id ≠ k)
    (notReturned : ∀ r, .ret k r ∉ history) :
    Linearization obj s₀ history (obj op s).1 (order ++ [.now obj k op s]) where
  legal := legal_snoc explains.legal
  nodup := by
    rw [List.map_append]
    refine List.Nodup.append explains.nodup (List.nodup_singleton _) ?_
    intro id isOld isNew
    obtain ⟨e, among, rfl⟩ := List.mem_map.mp isOld
    exact notYet e among (List.mem_singleton.mp isNew)
  called e among := by
    rcases List.mem_append.mp among with before | now
    · exact explains.called e before
    · cases List.mem_singleton.mp now
      exact (wasCalled op).mpr rfl
  once e among op' isCall := by
    rcases List.mem_append.mp among with before | now
    · exact explains.once e before op' isCall
    · cases List.mem_singleton.mp now
      exact (wasCalled op').mp isCall
  returned k' r among := by
    obtain ⟨e, isIn, isEntry⟩ := explains.returned k' r among
    exact ⟨e, List.mem_append_left _ isIn, isEntry⟩
  inTime := by
    refine List.pairwise_append.mpr ⟨explains.inTime, List.pairwise_singleton .., ?_⟩
    rintro e _ later now ⟨r, op', sub⟩
    cases List.mem_singleton.mp now
    exact notReturned r (sub.subset (List.mem_cons_self ..))

/-- A mark of another call. -/
theorem Phase.Means.mark {history : List (Mark Op R)} {order : List (Entry Op R)} {k : Nat}
    {phase : Phase Op R} {mark : Mark Op R} (means : phase.Means history order k)
    (notCall : ∀ op, mark ≠ .call k op) (notRet : ∀ r, mark ≠ .ret k r) :
    phase.Means (history ++ [mark]) order k := by
  have old : ∀ {m : Mark Op R}, m ≠ mark → m ∉ history → m ∉ history ++ [mark] := by
    intro m other notIn among
    rcases List.mem_append.mp among with before | now
    · exact notIn before
    · exact other (List.mem_singleton.mp now)
  cases phase with
  | idle =>
    exact ⟨fun op => old (notCall op).symm (means.1 op), fun r => old (notRet r).symm (means.2 r)⟩
  | called op =>
    refine ⟨fun op' => ?_, means.2.1, fun r => old (notRet r).symm (means.2.2 r)⟩
    rw [List.mem_append, List.mem_singleton, means.1 op']
    exact or_iff_left (notCall op').symm
  | done op r => exact means
  | returned => trivial

/-- An operation of another call. -/
theorem Phase.Means.entry {history : List (Mark Op R)} {order : List (Entry Op R)} {k : Nat}
    {phase : Phase Op R} {e : Entry Op R} (means : phase.Means history order k) (other : e.id ≠ k) :
    phase.Means history (order ++ [e]) k := by
  cases phase with
  | idle => exact means
  | called op =>
    refine ⟨means.1, fun e' among => ?_, means.2.2⟩
    rcases List.mem_append.mp among with before | now
    · exact means.2.1 e' before
    · cases List.mem_singleton.mp now
      exact other
  | done op r => exact List.mem_append_left _ means
  | returned => trivial

/-- **Linearization points**: the order of the moments at which the operations take place explains the
history, and a phase means what it says. -/
theorem Points.explained {history : List (Mark Op R)} {order : List (Entry Op R)}
    {phases : Nat → Phase Op R} (points : Points obj s₀ history order phases s) :
    Linearization obj s₀ history s order ∧ ∀ k, (phases k).Means history order k := by
  induction points with
  | start =>
    refine ⟨⟨rfl, List.nodup_nil, ?_, ?_, ?_, List.Pairwise.nil⟩, fun k => ?_⟩
    · exact fun e among => nomatch among
    · exact fun e among => nomatch among
    · exact fun k r among => nomatch among
    · exact ⟨fun op => List.not_mem_nil, fun r => List.not_mem_nil⟩
  | @call history order phases s k op points isIdle ih =>
    obtain ⟨explains, means⟩ := ih
    have idle := means k
    rw [isIdle] at idle
    have fresh : ∀ e ∈ order, e.id ≠ k := by
      rintro e among rfl
      exact idle.1 e.op (explains.called e among)
    refine ⟨explains.mark (.call k op) (fun _ _ isRet => nomatch isRet) ?_, fun k' => ?_⟩
    · rintro k' op' ⟨⟩
      exact fresh
    · by_cases same : k' = k
      · subst same
        rw [Function.update_self]
        refine ⟨fun op' => ?_, fresh, fun r among => ?_⟩
        · rw [List.mem_append, List.mem_singleton, Mark.call.injEq]
          exact ⟨fun isCall => (isCall.resolve_left (idle.1 op')).2, fun same => .inr ⟨rfl, same⟩⟩
        · rcases List.mem_append.mp among with before | now
          · exact idle.2 r before
          · cases List.mem_singleton.mp now
      · rw [Function.update_of_ne same]
        refine (means k').mark (fun op' isCall => ?_) fun r isRet => nomatch isRet
        cases isCall
        exact same rfl
  | @effect history order phases s k op points isCalled ih =>
    obtain ⟨explains, means⟩ := ih
    have called := means k
    rw [isCalled] at called
    obtain ⟨wasCalled, notYet, notReturned⟩ := called
    refine ⟨explains.entry wasCalled notYet notReturned, fun k' => ?_⟩
    by_cases same : k' = k
    · subst same
      rw [Function.update_self]
      exact List.mem_append_right _ (List.mem_singleton_self _)
    · rw [Function.update_of_ne same]
      exact (means k').entry (Ne.symm same)
  | @ret history order phases s k op r points isDone ih =>
    obtain ⟨explains, means⟩ := ih
    have done := means k
    rw [isDone] at done
    refine ⟨explains.mark (.ret k r) ?_ (fun _ _ isCall => nomatch isCall), fun k' => ?_⟩
    · rintro k' r' ⟨⟩
      exact ⟨_, done, rfl, rfl⟩
    · by_cases same : k' = k
      · subst same
        rw [Function.update_self]
        trivial
      · rw [Function.update_of_ne same]
        refine (means k').mark (fun op' isCall => nomatch isCall) fun r' isRet => ?_
        cases isRet
        exact same rfl
  | @lost history order phases s k points ih =>
    obtain ⟨explains, means⟩ := ih
    refine ⟨explains.mark (.lost k) (fun _ _ isRet => nomatch isRet)
      (fun _ _ isCall => nomatch isCall), fun k' => ?_⟩
    exact (means k').mark (fun _ isCall => nomatch isCall) fun _ isRet => nomatch isRet

theorem Points.linearizable {history : List (Mark Op R)} {order : List (Entry Op R)}
    {phases : Nat → Phase Op R} (points : Points obj s₀ history order phases s) :
    Linearizable obj s₀ history s := ⟨order, points.explained.1⟩

/-! ## What an order that explains a history says -/

/-- Of two members of a list one comes before the other. -/
theorem sublist_pair_or {α : Type} {l : List α} {a b : α} (isIn : a ∈ l) (isIn' : b ∈ l)
    (other : a ≠ b) : List.Sublist [a, b] l ∨ List.Sublist [b, a] l := by
  obtain ⟨before, after, rfl⟩ := List.append_of_mem isIn
  rcases List.mem_append.mp isIn' with earlier | later
  · right
    exact (List.singleton_sublist.mpr earlier).append (List.cons_sublist_cons.mpr (List.nil_sublist _))
  · left
    rcases List.mem_cons.mp later with same | later
    · exact absurd same.symm other
    · exact (List.cons_sublist_cons.mpr (List.singleton_sublist.mpr later)).trans
        (List.sublist_append_right ..)

namespace Linearization

variable {history : List (Mark Op R)} {order : List (Entry Op R)} {e e' : Entry Op R}

/-- A call that returned is in the order, as it was made. -/
theorem entry_of_ret (explains : Linearization obj s₀ history s order) {k : Nat} {op : Op} {r : R}
    (isCall : .call k op ∈ history) (isRet : .ret k r ∈ history) : ⟨k, op, r⟩ ∈ order := by
  obtain ⟨e, isIn, rfl, rfl⟩ := explains.returned k r isRet
  cases explains.once e isIn op isCall
  exact isIn

/-- A call that returned before another was made took place before it. -/
theorem sublist (explains : Linearization obj s₀ history s order) (isIn : e ∈ order)
    (isIn' : e' ∈ order) (other : e ≠ e') (before : Precedes history e.id e'.id) :
    List.Sublist [e, e'] order := by
  refine (sublist_pair_or isIn isIn' other).resolve_right fun wrong => ?_
  exact List.pairwise_iff_forall_sublist.mp explains.inTime wrong before

/-- A call that took place before another one was made before that one returned. -/
theorem called_before (explains : Linearization obj s₀ history s order)
    (sub : List.Sublist [e, e'] order) (isRet : e'.returned ∈ history) :
    List.Sublist [e.called, e'.returned] history := by
  have isIn : e ∈ order := sub.subset (List.mem_cons_self ..)
  refine (sublist_pair_or (explains.called e isIn) isRet (fun same => nomatch same)).resolve_right ?_
  exact fun wrong => List.pairwise_iff_forall_sublist.mp explains.inTime sub ⟨_, _, wrong⟩

/-- One operation after another: the states that they saw, with what took place between them. -/
theorem between (explains : Linearization obj s₀ history s order)
    (sub : List.Sublist [e, e'] order) :
    ∃ m m' between, e.result = (obj e.op m).2 ∧ Legal obj (obj e.op m).1 between m' ∧
      e'.result = (obj e'.op m').2 ∧ ∀ x ∈ e :: between, List.Sublist [x, e'] order := by
  obtain ⟨first, second, rfl, isIn, isIn'⟩ := List.cons_sublist_iff.mp sub
  have isIn' := List.singleton_sublist.mp isIn'
  obtain ⟨before, after, rfl⟩ := List.append_of_mem isIn
  obtain ⟨before', after', rfl⟩ := List.append_of_mem isIn'
  obtain ⟨mid, legal, legal'⟩ := legal_append.mp explains.legal
  obtain ⟨m, _, isResult, rest⟩ := legal_append.mp legal
  obtain ⟨m', rest', isResult', _⟩ := legal_append.mp legal'
  refine ⟨m, m', after ++ before', isResult, legal_append.mpr ⟨mid, rest, rest'⟩, isResult', ?_⟩
  intro x isX
  have among : x ∈ before ++ e :: after ++ before' := by
    rw [List.append_assoc]
    exact List.mem_append_right _ isX
  have split : before ++ e :: after ++ (before' ++ e' :: after') =
      (before ++ e :: after ++ before') ++ e' :: after' := by
    rw [List.append_assoc, List.append_assoc, List.append_assoc]
  rw [split]
  exact (List.singleton_sublist.mpr among).append
    (List.cons_sublist_cons.mpr (List.nil_sublist _))

end Linearization

end

end QuietStorage.Lib
