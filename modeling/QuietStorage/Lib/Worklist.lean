import Mathlib.Data.Finset.Card
import Mathlib.Logic.Relation
import Mathlib.Tactic.Common

/-!
# Lib.Worklist — a search through a graph that may have cycles

A loop takes an item from the worklist, passes over it if it is no node or was visited before, and
else puts the node to a test: if the node passes, the search has found it; if not, its links join the
worklist. The test may throw, and then so does the search.

**The order** in which the items are taken is a parameter: before each turn the worklist is
rearranged, depending on what was visited so far. Whoever takes the last item that was pushed
rearranges nothing.

**What is proved.** Each node is expanded once, so `length + k * nodes + 1` turns are enough when a
node has at most `k` links (`search_ends`). A search that is met by no failing test is exact: it
answers whether a node that passes is reachable (`search_sound`). And if a node whose test throws can
be reached through nodes that fail it, some order gets there first (`exists_order_error`).
-/

set_option autoImplicit false

namespace QuietStorage.Lib

/-- A node: how the test on it ends, and its links. A link that leads nowhere is `none`. -/
structure WorkNode (ν ε : Type) where
  verdict : Except ε Bool
  links : List (Option ν)

/-- How the worklist is rearranged, when these were visited. -/
abbrev WorkOrder (ν : Type) := List ν → List (Option ν) → List (Option ν)

/-- An order neither loses nor invents an item. -/
def WorkOrder.Permutes {ν : Type} (order : WorkOrder ν) : Prop :=
  ∀ visited pending, (order visited pending).Perm pending

/-- The item that was pushed last is taken first. -/
def WorkOrder.lifo {ν : Type} : WorkOrder ν := fun _ pending => pending

theorem WorkOrder.lifo_permutes {ν : Type} : (WorkOrder.lifo (ν := ν)).Permutes :=
  fun _ pending => .refl pending

section
variable {ν ε : Type} [DecidableEq ν] (look : ν → Option (WorkNode ν ε)) (order : WorkOrder ν)

/-- One turn: the search has ended, or it goes on with what is pending and what was visited. -/
inductive WorkTurn (ν ε : Type) where
  | ended (answer : Except ε Bool)
  | next (pending : List (Option ν)) (visited : List ν)

/-- The item is taken up: it is no node, it was visited, or it is put to the test. -/
def takeUp (item : Option ν) (pending : List (Option ν)) (visited : List ν) : WorkTurn ν ε :=
  match item.bind fun v => (look v).map fun node => (v, node) with
  | none => .next pending visited
  | some (v, node) =>
    if v ∈ visited then .next pending visited
    else
      match node.verdict with
      | .ok false => .next (node.links.reverse ++ pending) (v :: visited)
      | answer => .ended answer

/-- The loop, for so many turns; `none` if they do not do. -/
def search : Nat → List (Option ν) → List ν → Option (Except ε Bool)
  | 0, _, _ => none
  | turns + 1, pending, visited =>
    match order visited pending with
    | [] => some (.ok false)
    | item :: pending =>
      match takeUp look item pending visited with
      | .ended answer => some answer
      | .next pending visited => search turns pending visited

/-! ## Reachability -/

/-- The node `v` has a link to `w`. -/
def Links (v w : ν) : Prop := ∃ node, look v = some node ∧ some w ∈ node.links

/-- The test on the node ends so. -/
def Tests (v : ν) (verdict : Except ε Bool) : Prop :=
  ∃ node, look v = some node ∧ node.verdict = verdict

/-- The node fails the test and has a link to `w`: a search goes on from it. -/
def PassesOn (v w : ν) : Prop := Links look v w ∧ Tests look v (.ok false)

/-- What can be reached from an item. -/
def ReachedFrom (start : Option ν) (v : ν) : Prop :=
  ∃ root, start = some root ∧ Relation.ReflTransGen (Links look) root v

/-- What can be reached from an item through nodes that fail the test. -/
def OpenTo (start : Option ν) (v : ν) : Prop :=
  ∃ root, start = some root ∧ Relation.ReflTransGen (PassesOn look) root v

/-! ## One turn -/

/-- What a turn can do. -/
theorem takeUp_cases (item : Option ν) (pending : List (Option ν)) (visited : List ν) :
    (takeUp look item pending visited = .next pending visited ∧
      ∀ v node, item = some v → look v = some node → v ∈ visited) ∨
    (∃ v node, item = some v ∧ look v = some node ∧ v ∉ visited ∧ node.verdict = .ok false ∧
      takeUp look item pending visited = .next (node.links.reverse ++ pending) (v :: visited)) ∨
    ∃ v node, item = some v ∧ look v = some node ∧ v ∉ visited ∧ node.verdict ≠ .ok false ∧
      takeUp look item pending visited = .ended node.verdict := by
  cases item with
  | none => exact .inl ⟨rfl, by simp⟩
  | some v =>
    cases found : look v with
    | none =>
      refine .inl ⟨by simp [takeUp, found], ?_⟩
      rintro _ node ⟨rfl⟩ other
      simp [found] at other
    | some node =>
      by_cases again : v ∈ visited
      · refine .inl ⟨by simp [takeUp, found, again], ?_⟩
        rintro _ node' ⟨rfl⟩ -
        exact again
      · by_cases fails : node.verdict = .ok false
        · exact .inr (.inl ⟨v, node, rfl, found, again, fails, by
            simp [takeUp, found, again, fails]⟩)
        · refine .inr (.inr ⟨v, node, rfl, found, again, fails, ?_⟩)
          simp only [takeUp, Option.bind_some, found, Option.map_some, if_neg again]

/-- A node that is visited for the first time is one less to visit. -/
theorem unvisited_lt {nodes : Finset ν} {visited : List ν} {v : ν} (known : v ∈ nodes)
    (fresh : v ∉ visited) :
    (nodes.filter (· ∉ v :: visited)).card < (nodes.filter (· ∉ visited)).card := by
  apply Finset.card_lt_card
  refine ⟨fun w => ?_, fun same => ?_⟩
  · simp only [Finset.mem_filter, List.mem_cons, not_or]
    exact fun left => ⟨left.1, left.2.2⟩
  · have left := same (Finset.mem_filter.mpr ⟨known, fresh⟩)
    simp at left

variable {look order}

/-- **Enough turns**: what is pending is taken up once, and each of finitely many nodes brings its
links in once. -/
theorem search_ends (permutes : order.Permutes) (nodes : Finset ν) (k : Nat)
    (complete : ∀ v node, look v = some node → v ∈ nodes)
    (few : ∀ v node, look v = some node → node.links.length ≤ k) :
    ∀ (turns : Nat) (pending : List (Option ν)) (visited : List ν),
      pending.length + k * (nodes.filter (· ∉ visited)).card + 1 ≤ turns →
      ∃ answer, search look order turns pending visited = some answer := by
  intro turns
  induction turns with
  | zero => intro pending visited enough; omega
  | succ turns ih =>
    intro pending visited enough
    have length_eq := (permutes visited pending).length_eq
    rw [search]
    cases arranged : order visited pending with
    | nil => exact ⟨.ok false, rfl⟩
    | cons item rest =>
      rw [arranged, List.length_cons] at length_eq
      dsimp only
      rcases takeUp_cases look item rest visited with
        ⟨turned, -⟩ | ⟨v, node, -, found, fresh, -, turned⟩ | ⟨v, node, -, -, -, -, turned⟩
      · rw [turned]
        exact ih _ _ (by omega)
      · have fewer := unvisited_lt (complete v node found) fresh
        have links := few v node found
        have saved : k * ((nodes.filter (· ∉ v :: visited)).card + 1) ≤
            k * (nodes.filter (· ∉ visited)).card := Nat.mul_le_mul_left k fewer
        rw [turned]
        refine ih _ _ ?_
        rw [List.length_append, List.length_reverse]
        rw [Nat.mul_add, Nat.mul_one] at saved
        omega
      · exact ⟨node.verdict, by rw [turned]⟩

end

/-! ## What the search has seen -/

section
variable {ν ε : Type} {look : ν → Option (WorkNode ν ε)} {start item : Option ν}
  {pending : List (Option ν)} {visited : List ν}

/-- The item is pending, or it is not to be visited (again). -/
def Kept (look : ν → Option (WorkNode ν ε)) (pending : List (Option ν)) (visited : List ν)
    (item : Option ν) : Prop :=
  item ∈ pending ∨ ∀ v node, item = some v → look v = some node → v ∈ visited

/-- What is pending and what was visited can be reached openly, what was visited has failed the test,
and no link from there was lost. -/
structure Covers (look : ν → Option (WorkNode ν ε)) (start : Option ν) (pending : List (Option ν))
    (visited : List ν) : Prop where
  pending_open : ∀ v, some v ∈ pending → OpenTo look start v
  visited_open : ∀ v ∈ visited, OpenTo look start v
  visited_fails : ∀ v ∈ visited, Tests look v (.ok false)
  start_kept : Kept look pending visited start
  links_kept : ∀ v ∈ visited, ∀ node, look v = some node →
    ∀ link ∈ node.links, Kept look pending visited link

theorem covers_start (start : Option ν) : Covers look start [start] [] where
  pending_open v mem := ⟨v, (List.mem_singleton.mp mem).symm, .refl⟩
  visited_open := by simp
  visited_fails := by simp
  start_kept := .inl (List.mem_singleton_self start)
  links_kept := by simp

theorem Kept.perm {pending' : List (Option ν)} (kept : Kept look pending visited item)
    (perm : pending'.Perm pending) : Kept look pending' visited item :=
  kept.imp_left perm.mem_iff.mpr

theorem Covers.perm {pending' : List (Option ν)} (covers : Covers look start pending visited)
    (perm : pending'.Perm pending) : Covers look start pending' visited where
  pending_open v mem := covers.pending_open v (perm.mem_iff.mp mem)
  visited_open := covers.visited_open
  visited_fails := covers.visited_fails
  start_kept := covers.start_kept.perm perm
  links_kept v mem node found link linked :=
    (covers.links_kept v mem node found link linked).perm perm

/-- An item that is passed over may be dropped. -/
theorem Kept.skip {other : Option ν} (kept : Kept look (item :: pending) visited other)
    (skipped : ∀ v node, item = some v → look v = some node → v ∈ visited) :
    Kept look pending visited other := by
  rcases kept with mem | visited
  · rcases List.mem_cons.mp mem with rfl | mem
    · exact .inr skipped
    · exact .inl mem
  · exact .inr visited

/-- A node that is expanded need not stay. -/
theorem Kept.expand {v : ν} {links : List (Option ν)} {other : Option ν}
    (kept : Kept look (some v :: pending) visited other) :
    Kept look (links ++ pending) (v :: visited) other := by
  rcases kept with mem | visited
  · rcases List.mem_cons.mp mem with rfl | mem
    · refine .inr ?_
      rintro _ _ ⟨rfl⟩ -
      exact List.mem_cons_self
    · exact .inl (List.mem_append_right links mem)
  · exact .inr fun w node same found => List.mem_cons_of_mem v (visited w node same found)

theorem OpenTo.step {v w : ν} (reached : OpenTo look start v) (passes : PassesOn look v w) :
    OpenTo look start w := by
  obtain ⟨root, same, path⟩ := reached
  exact ⟨root, same, path.tail passes⟩

theorem Covers.skip (covers : Covers look start (item :: pending) visited)
    (skipped : ∀ v node, item = some v → look v = some node → v ∈ visited) :
    Covers look start pending visited where
  pending_open v mem := covers.pending_open v (List.mem_cons_of_mem item mem)
  visited_open := covers.visited_open
  visited_fails := covers.visited_fails
  start_kept := covers.start_kept.skip skipped
  links_kept v mem node found link linked :=
    (covers.links_kept v mem node found link linked).skip skipped

theorem Covers.expand {v : ν} {node : WorkNode ν ε}
    (covers : Covers look start (some v :: pending) visited) (found : look v = some node)
    (fails : node.verdict = .ok false) :
    Covers look start (node.links.reverse ++ pending) (v :: visited) where
  pending_open w mem := by
    rcases List.mem_append.mp mem with linked | mem
    · exact (covers.pending_open v List.mem_cons_self).step
        ⟨⟨node, found, List.mem_reverse.mp linked⟩, node, found, fails⟩
    · exact covers.pending_open w (List.mem_cons_of_mem _ mem)
  visited_open w mem := by
    rcases List.mem_cons.mp mem with rfl | mem
    · exact covers.pending_open w List.mem_cons_self
    · exact covers.visited_open w mem
  visited_fails w mem := by
    rcases List.mem_cons.mp mem with rfl | mem
    · exact ⟨node, found, fails⟩
    · exact covers.visited_fails w mem
  start_kept := covers.start_kept.expand
  links_kept w mem node' found' link linked := by
    rcases List.mem_cons.mp mem with rfl | mem
    · cases found.symm.trans found'
      exact .inl (List.mem_append_left pending (List.mem_reverse.mpr linked))
    · exact (covers.links_kept w mem node' found' link linked).expand

/-- With nothing pending, whatever can be reached openly was visited. -/
theorem Covers.visited_of_open (covers : Covers look start [] visited) {v : ν}
    {node : WorkNode ν ε} (reached : OpenTo look start v) (found : look v = some node) :
    v ∈ visited := by
  obtain ⟨root, same, path⟩ := reached
  induction path generalizing node with
  | refl =>
    rcases covers.start_kept with mem | visited
    · simp at mem
    · exact visited root node same found
  | tail _ passes ih =>
    obtain ⟨⟨before, foundBefore, linked⟩, -⟩ := passes
    rcases covers.links_kept _ (ih foundBefore) before foundBefore _ linked with mem | visited
    · simp at mem
    · exact visited _ node rfl found

/-! ## The answer -/

variable [DecidableEq ν] {order : WorkOrder ν}

/-- **Soundness**: the search answers `false` only if every node that it can reach fails the test, and
any other answer is the verdict on a node that it can reach. -/
theorem search_sound (permutes : order.Permutes) {answer : Except ε Bool} :
    ∀ (turns : Nat) (pending : List (Option ν)) (visited : List ν),
      Covers look start pending visited → search look order turns pending visited = some answer →
      (answer = .ok false ∧ ∀ v node, OpenTo look start v → look v = some node →
        node.verdict = .ok false) ∨
      (answer ≠ .ok false ∧ ∃ v, OpenTo look start v ∧ Tests look v answer) := by
  intro turns
  induction turns with
  | zero => intro pending visited _ ended; cases ended
  | succ turns ih =>
    intro pending visited covers ended
    have covers := covers.perm (permutes visited pending)
    rw [search] at ended
    cases arranged : order visited pending with
    | nil =>
      rw [arranged] at ended covers
      cases ended
      refine .inl ⟨rfl, fun v node reached found => ?_⟩
      obtain ⟨node', found', fails⟩ :=
        covers.visited_fails v (covers.visited_of_open reached found)
      cases found.symm.trans found'
      exact fails
    | cons item rest =>
      rw [arranged] at ended covers
      dsimp only at ended
      rcases takeUp_cases look item rest visited with
        ⟨turned, skipped⟩ | ⟨v, node, rfl, found, -, fails, turned⟩ |
          ⟨v, node, rfl, found, -, passes, turned⟩
      · rw [turned] at ended
        exact ih _ _ (covers.skip skipped) ended
      · rw [turned] at ended
        exact ih _ _ (covers.expand found fails) ended
      · rw [turned] at ended
        cases ended
        exact .inr ⟨passes, v, covers.pending_open v List.mem_cons_self, node, found, rfl⟩

omit [DecidableEq ν] in
theorem OpenTo.reached {v : ν} (opened : OpenTo look start v) : ReachedFrom look start v := by
  obtain ⟨root, same, path⟩ := opened
  exact ⟨root, same, path.lift id fun _ _ passes => passes.1⟩

omit [DecidableEq ν] in
/-- If whatever can be reached openly fails the test, nothing else can be reached. -/
theorem ReachedFrom.opened {v : ν}
    (fails : ∀ v node, OpenTo look start v → look v = some node → node.verdict = .ok false)
    (reached : ReachedFrom look start v) : OpenTo look start v := by
  obtain ⟨root, same, path⟩ := reached
  refine ⟨root, same, ?_⟩
  induction path with
  | refl => exact .refl
  | tail _ link ih =>
    obtain ⟨node, found, linked⟩ := link
    exact ih.tail ⟨⟨node, found, linked⟩, node, found, fails _ node ⟨root, same, ih⟩ found⟩

/-- **Exactness**: a search that can reach no node whose test throws answers whether a good node can
be reached, if the test tells the good nodes from the others wherever it does not throw. -/
theorem search_exact (permutes : order.Permutes) (good : ν → Prop)
    (calm : ∀ v e, OpenTo look start v → ¬ Tests look v (.error e))
    (good_node : ∀ v, good v → ∃ node, look v = some node)
    (good_of_passes : ∀ v, Tests look v (.ok true) → good v)
    (not_good_of_fails : ∀ v, Tests look v (.ok false) → ¬ good v) {turns : Nat}
    {answer : Except ε Bool} (ended : search look order turns [start] [] = some answer) :
    ∃ found : Bool, answer = .ok found ∧ (found = true ↔ ∃ v, ReachedFrom look start v ∧ good v) := by
  rcases search_sound permutes turns _ _ (covers_start start) ended with
    ⟨rfl, fails⟩ | ⟨passes, v, opened, tests⟩
  · refine ⟨false, rfl, by simp, ?_⟩
    rintro ⟨v, reached, isGood⟩
    obtain ⟨node, found⟩ := good_node v isGood
    have verdict := fails v node (reached.opened fails) found
    exact absurd isGood (not_good_of_fails v ⟨node, found, verdict⟩)
  · cases answer with
    | error e => exact (calm v e opened tests).elim
    | ok found =>
      cases found with
      | false => exact (passes rfl).elim
      | true => exact ⟨true, rfl, fun _ => ⟨v, opened.reached, good_of_passes v tests⟩, fun _ => rfl⟩

/-! ## The order that finds a failing test -/

/-- The node is not in `past`, and leads openly to the target without passing through it. -/
def Leads (look : ν → Option (WorkNode ν ε)) (target : ν) (past : List ν) (v : ν) : Prop :=
  v ∉ past ∧ Relation.ReflTransGen (fun a b => PassesOn look a b ∧ b ∉ past) v target

omit [DecidableEq ν] in
/-- A way that passes through a node goes on from it without coming back. -/
theorem Leads.apart {target v w : ν} (leads : Leads look target visited w) (other : target ≠ v) :
    Leads look target (v :: visited) w ∨
      ∃ next, PassesOn look v next ∧ Leads look target (v :: visited) next := by
  obtain ⟨fresh, path⟩ := leads
  induction path using Relation.ReflTransGen.head_induction_on with
  | refl => exact .inl ⟨by simp [other, fresh], .refl⟩
  | @head a b edge _ ih =>
    rcases ih edge.2 with ⟨apart, path⟩ | goesOn
    · by_cases same : a = v
      · exact .inr ⟨b, same ▸ edge.1, apart, path⟩
      · exact .inl ⟨by simp [same, fresh], path.head ⟨edge.1, apart⟩⟩
    · exact .inr goesOn

open Classical in
/-- The order that takes first an item that leads to the target. -/
noncomputable def WorkOrder.toward (look : ν → Option (WorkNode ν ε)) (target : ν) : WorkOrder ν :=
  fun visited pending =>
    if leading : ∃ v, some v ∈ pending ∧ Leads look target visited v then
      some leading.choose :: pending.erase (some leading.choose)
    else pending

theorem WorkOrder.toward_permutes (target : ν) : (WorkOrder.toward look target).Permutes := by
  intro visited pending
  rw [WorkOrder.toward]
  split
  · next leading => exact (List.perm_cons_erase leading.choose_spec.1).symm
  · exact .refl pending

/-- On its way to a target whose test throws, the search has no other answer. -/
theorem search_toward {target : ν} {e : ε} (throws : Tests look target (.error e))
    {answer : Except ε Bool} :
    ∀ (turns : Nat) (pending : List (Option ν)) (visited : List ν),
      (∃ v, some v ∈ pending ∧ Leads look target visited v) →
      search look (WorkOrder.toward look target) turns pending visited = some answer →
      answer = .error e := by
  intro turns
  induction turns with
  | zero => intro pending visited _ ended; cases ended
  | succ turns ih =>
    intro pending visited leading ended
    have leads := leading.choose_spec.2
    rw [search, WorkOrder.toward, dif_pos leading] at ended
    generalize leading.choose = v at leads ended
    dsimp only at ended
    by_cases here : target = v
    · obtain ⟨node, found, verdict⟩ := throws
      subst here
      simp only [takeUp, Option.bind_some, found, Option.map_some, if_neg leads.1, verdict] at ended
      exact (Option.some.inj ended).symm
    · obtain ⟨next, ⟨⟨node, found, linked⟩, node', found', fails⟩, onward⟩ :=
        (leads.apart here).resolve_left fun apart => apart.1 List.mem_cons_self
      cases found.symm.trans found'
      simp only [takeUp, Option.bind_some, found, Option.map_some, if_neg leads.1, fails] at ended
      exact ih _ _ ⟨next, List.mem_append_left _ (List.mem_reverse.mpr linked), onward⟩ ended

/-- **An order that throws**: if a node whose test throws can be reached openly, there is an order
in which the search has no other end. -/
theorem exists_order_error {target : ν} {e : ε} (reached : OpenTo look start target)
    (throws : Tests look target (.error e)) :
    ∃ order : WorkOrder ν, order.Permutes ∧ ∀ turns answer,
      search look order turns [start] [] = some answer → answer = .error e := by
  obtain ⟨root, rfl, path⟩ := reached
  have leads : Leads look target [] root :=
    ⟨List.not_mem_nil, path.lift id fun _ _ passes => ⟨passes, List.not_mem_nil⟩⟩
  exact ⟨.toward look target, WorkOrder.toward_permutes target, fun turns answer =>
    search_toward throws turns _ _ ⟨root, List.mem_singleton_self _, leads⟩⟩

end

end QuietStorage.Lib
