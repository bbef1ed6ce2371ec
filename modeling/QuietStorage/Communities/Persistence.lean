import QuietStorage.Communities.Wiring

/-!
# Communities.Persistence — what a reloaded chain has

The graph of a community changes in memory, when LFA merges received links into the chain of a
connection, and an 'update' listener on the chain writes it to the row of its team. `get` puts the
listener on the chain it loads, `create` does not. `Survives` is what should hold whatever is
dropped in between: a chain that is loaded has every link that was reported before the community was
last dropped.

`updates_survive` proves it for every run whose writes succeed one after another and whose updates
and loads meet `KeepsGraph`: what is reported is written by the chain's listener, into the row of
the connection's own community and with everything that is stored there (or it was stored already),
and a load ends with the row that is stored. The invariant `Saved` carries it: what was reported is
in the row, or in the write that is under way. Of LFA it takes that loading a saved graph gives it
back.
-/

set_option autoImplicit false

namespace QuietStorage.Communities

open Lib Sync

variable {Blob : Type}

namespace State

/-! ## The property and its condition -/

/-- What was reported before a drop is in what is loaded after it. -/
def Survives (s : State Blob) : Prop :=
  ∀ T reported links, List.Sublist [.reported T reported, .dropped T, .loaded T links] s.trace →
    reported ⊆ links

/-- Every storage write succeeds, and completes before the next one starts. -/
def WritesInTurn (s : State Blob) : Action Blob → Prop
  | .updated c _ => c.sigChain.listens = true → s.writes = []
  | .writeCompleted _ succeeds => succeeds = true
  | _ => True

section
variable (lfa : Lfa Blob)

/-- The links of a serialized graph. -/
def linksOf (blob : Blob) : Finset Link :=
  match lfa.loadTeam blob with
  | none => ∅
  | some team => team.links

/-- The links in the row of a community. -/
def storedLinks (s : State Blob) (T : TeamId) : Finset Link :=
  match s.stored T with
  | none => ∅
  | some blob => linksOf lfa blob

/-- A load ends with the row that is stored, and no write to it is under way. -/
def ReadsStored (s : State Blob) : Task Blob → Prop
  | .retrievingKeys caller sigChain =>
    s.stored caller.teamId = some sigChain ∧ ∀ write ∈ s.writes, write.1 ≠ caller.teamId
  | _ => True

/-- What is reported is kept: it goes through a listener that writes it to the community's own row
with all that the row has, or the row has it already; and a load ends with the row that is
stored. -/
def KeepsGraph (s : State Blob) : Action Blob → Prop
  | .updated c received =>
    if c.sigChain.listens then
      c.sigChain.teamId = c.communityId ∧
        storedLinks lfa s c.communityId ⊆ s.links c.sigChain ∪ received
    else received ⊆ storedLinks lfa s c.communityId
  | .keysRetrieved k true => s.ReadsStored (s.tasks k)
  | _ => True

instance decidableWritesInTurn [DecidableEq Blob] (s : State Blob) (a : Action Blob) :
    Decidable (WritesInTurn s a) :=
  match a with
  | .updated c _ => inferInstanceAs (Decidable (c.sigChain.listens = true → s.writes = []))
  | .writeCompleted _ succeeds => inferInstanceAs (Decidable (succeeds = true))
  | .get _ _ _ | .communityRead _ _ | .keysRetrieved _ _ | .resume _ _ | .create _ _
  | .serverKeysRetrieved _ _ | .keyringStored _ _ | .communityAdded _ _ | .created _ _
  | .connected _ _ | .disconnected _ _ | .socketDisconnected _ _ _ | .sweep _ | .restart =>
    .isTrue trivial

instance decidableReadsStored [DecidableEq Blob] (s : State Blob) (task : Task Blob) :
    Decidable (ReadsStored s task) :=
  match task with
  | .retrievingKeys _ _ => inferInstanceAs (Decidable (_ ∧ _))
  | .idle | .reading _ | .resolved _ _ | .creating _ | .storingKeyring _ _ | .adding _ _
  | .added _ _ _ => .isTrue trivial

instance decidableKeepsGraph [DecidableEq Blob] (s : State Blob) (a : Action Blob) :
    Decidable (KeepsGraph lfa s a) :=
  match a with
  | .updated c received => inferInstanceAs (Decidable
      (if c.sigChain.listens then
        c.sigChain.teamId = c.communityId ∧
          storedLinks lfa s c.communityId ⊆ s.links c.sigChain ∪ received
      else received ⊆ storedLinks lfa s c.communityId))
  | .keysRetrieved k true => decidableReadsStored s (s.tasks k)
  | .get _ _ _ | .communityRead _ _ | .keysRetrieved _ false | .resume _ _ | .create _ _
  | .serverKeysRetrieved _ _ | .keyringStored _ _ | .communityAdded _ _ | .created _ _
  | .connected _ _ | .disconnected _ _ | .socketDisconnected _ _ _ | .writeCompleted _ _
  | .sweep _ | .restart => .isTrue trivial

end

/-! ## Rows stay -/

/-- What is in memory has a row: every connection, every community, and every create that has
inserted its own. -/
structure Rows (s : State Blob) : Prop where
  started : ∀ c ∈ s.started, s.stored c.communityId ≠ none
  cached : ∀ T m, s.communities.get? T = some m → s.stored T ≠ none
  added : ∀ k request team, s.tasks k = .added request team true →
    s.stored request.teamId ≠ none
  written : ∀ write ∈ s.writes, s.stored write.1 ≠ none

namespace Rows

theorem start (stored : TeamId → Option Blob) : Rows (State.start stored) where
  started := fun _ mem => absurd mem List.not_mem_nil
  cached := fun _ _ found => by cases found
  added := fun _ _ _ task => by cases task
  written := fun _ mem => absurd mem List.not_mem_nil

theorem mono {s s' : State Blob} (rows : Rows s) (shrinks : Shrinks s s') : Rows s' where
  started := by
    intro c mem
    rw [shrinks.stored]
    exact rows.started c (shrinks.started mem)
  cached := by
    intro T m' found
    obtain ⟨m, before, _⟩ := shrinks.communities T m' found
    rw [shrinks.stored]
    exact rows.cached T m before
  added := by
    intro k request team task
    rw [shrinks.stored]
    rcases shrinks.tasks k with same | idle
    · exact rows.added k request team (same ▸ task)
    · rw [idle] at task
      cases task
  written := by
    intro write mem
    rw [shrinks.writes] at mem
    rw [shrinks.stored]
    exact rows.written write mem

theorem setTask {s : State Blob} (rows : Rows s) (k : TaskId) {task : Task Blob}
    (row : ∀ request team, task = .added request team true → s.stored request.teamId ≠ none) :
    Rows (s.setTask k task) where
  started := rows.started
  cached := rows.cached
  added := by
    intro k' request team isTask
    simp only [State.setTask, Function.update_apply] at isTask
    split at isTask
    · exact row request team isTask
    · exact rows.added k' request team isTask
  written := rows.written

theorem register {s : State Blob} (rows : Rows s) {c : AuthConnection} (m : ManagedCommunity)
    (ref : MapRef) (row : s.stored c.communityId ≠ none) : Rows (s.register c m ref) where
  started := by
    intro c' mem
    rcases List.mem_append.mp mem with mem | mem
    · exact rows.started c' mem
    · rw [List.mem_singleton.mp mem]
      exact row
  cached := by
    intro T m' found
    simp only [State.register, JsMap.get?_set] at found
    split at found
    · next here =>
      rw [here]
      exact row
    · exact rows.cached T m' found
  added := rows.added
  written := rows.written

theorem startAuthSyncConnection {s : State Blob} (rows : Rows s) (userId : UserId) (T : TeamId)
    (socketId : SocketId) (env : Env) :
    Rows ((s.startAuthSyncConnection userId T socketId env).getD s) := by
  rcases s.startAuthSyncConnection_getD userId T socketId env with shrinks | starts
  · exact rows.mono shrinks
  · obtain ⟨m, ref, between, found, _, before, after⟩ := starts
    apply mono _ after
    apply register (rows.mono before)
    rw [before.stored]
    exact rows.cached T m found

/-- A chain is put into memory for a community that has a row. -/
theorem place {s : State Blob} (rows : Rows s) {T : TeamId} (team : Team) (listens : Bool)
    (m : ManagedCommunity) (row : s.stored T ≠ none) :
    Rows ((s.newChain team listens).1.setCommunity T m) where
  started := rows.started
  cached := by
    intro T' m' found
    simp only [setCommunity, newChain, JsMap.get?_set] at found
    split at found
    · next here =>
      rw [here]
      exact row
    · exact rows.cached T' m' found
  added := rows.added
  written := rows.written

/-- Where no row is lost, the rows there are stay. -/
theorem of_stored {s s' : State Blob} (rows : Rows s) (started : s'.started = s.started)
    (communities : s'.communities = s.communities) (tasks : s'.tasks = s.tasks)
    (written : ∀ write ∈ s'.writes, s'.stored write.1 ≠ none)
    (kept : ∀ T, s.stored T ≠ none → s'.stored T ≠ none) : Rows s' where
  started := by
    rw [started]
    exact fun c mem => kept _ (rows.started c mem)
  cached := by
    rw [communities]
    exact fun T m found => kept _ (rows.cached T m found)
  added := by
    rw [tasks]
    exact fun k request team task => kept _ (rows.added k request team task)
  written := written

/-- A row is inserted. -/
theorem insert {s : State Blob} (rows : Rows s) (T : TeamId) (blob : Blob) :
    Rows { s with stored := Function.update s.stored T (some blob) } := by
  have kept (T' : TeamId) (row : s.stored T' ≠ none) :
      Function.update s.stored T (some blob) T' ≠ none := by
    rw [Function.update_apply]
    split
    · exact Option.some_ne_none blob
    · exact row
  exact rows.of_stored rfl rfl rfl (fun write mem => kept _ (rows.written write mem)) kept

/-- A write that completes, or fails, takes no row away. -/
theorem completeWrite {s : State Blob} (rows : Rows s) (i : Nat) (T : TeamId) (blob : Blob)
    (succeeds : Bool) : Rows (s.completeWrite i T blob succeeds) := by
  have kept (T' : TeamId) (row : s.stored T' ≠ none) :
      (s.completeWrite i T blob succeeds).stored T' ≠ none := by
    unfold State.completeWrite
    dsimp only
    split
    · rw [Function.update_apply]
      split
      · exact Option.some_ne_none blob
      · exact row
    · exact row
  refine rows.of_stored rfl rfl rfl ?_ kept
  intro write mem
  exact kept _ (rows.written write (List.mem_of_mem_eraseIdx mem))

/-- A listener writes to the row of its own team. -/
theorem update {s : State Blob} (rows : Rows s) (lfa : Lfa Blob) {c : AuthConnection}
    (received : Finset Link) (row : c.sigChain.listens = true → s.stored c.sigChain.teamId ≠ none) :
    Rows (s.update lfa c received) := by
  rw [update_eq]
  refine rows.of_stored rfl rfl rfl ?_ fun _ row => row
  intro write mem
  dsimp only at mem ⊢
  split at mem
  · next listens =>
    rcases List.mem_append.mp mem with mem | mem
    · exact rows.written write mem
    · rw [List.mem_singleton.mp mem]
      exact row listens
  · exact rows.written write mem

/-- The trace has no rows. -/
theorem retrace {s : State Blob} (rows : Rows s) (trace : List Event) :
    Rows { s with trace := trace } :=
  ⟨rows.started, rows.cached, rows.added, rows.written⟩

end Rows

/-! ## What was reported is in the row or under way -/

/-- **The invariant**: what was reported for a community is in its row, or, while a write to the row
is under way, in the write, which has all that the row has. -/
structure Saved (lfa : Lfa Blob) (s : State Blob) : Prop where
  single : s.writes.length ≤ 1
  grows : ∀ write ∈ s.writes, storedLinks lfa s write.1 ⊆ linksOf lfa write.2
  reported : ∀ T reported, .reported T reported ∈ s.trace →
    (∀ write ∈ s.writes, write.1 = T → reported ⊆ linksOf lfa write.2) ∧
      ((∀ write ∈ s.writes, write.1 ≠ T) → reported ⊆ storedLinks lfa s T)

section
variable {lfa : Lfa Blob}

theorem storedLinks_congr (lfa : Lfa Blob) {s s' : State Blob} (stored : s'.stored = s.stored)
    (T : TeamId) : storedLinks lfa s' T = storedLinks lfa s T := by
  unfold storedLinks
  rw [stored]

/-- A row is inserted or replaced. -/
theorem storedLinks_update (lfa : Lfa Blob) {s s' : State Blob} {T : TeamId} {blob : Blob}
    (stored : s'.stored = Function.update s.stored T (some blob)) (T' : TeamId) :
    storedLinks lfa s' T' = if T' = T then linksOf lfa blob else storedLinks lfa s T' := by
  unfold storedLinks
  rw [stored, Function.update_apply]
  by_cases same : T' = T
  · rw [if_pos same, if_pos same]
  · rw [if_neg same, if_neg same]

/-- What `Saved` reads: the rows, the writes under way and what was reported. -/
theorem Saved.congr {s s' : State Blob} (saved : Saved lfa s) (stored : s'.stored = s.stored)
    (writes : s'.writes = s.writes)
    (reported : ∀ T links, .reported T links ∈ s'.trace → .reported T links ∈ s.trace) :
    Saved lfa s' where
  single := writes ▸ saved.single
  grows := by
    intro write mem
    rw [storedLinks_congr lfa stored]
    exact saved.grows write (writes ▸ mem)
  reported := by
    intro T links mem
    rw [storedLinks_congr lfa stored, writes]
    exact saved.reported T links (reported T links mem)

theorem Saved.calm {s s' : State Blob} (saved : Saved lfa s) (calm : Calm s s') :
    Saved lfa s' :=
  saved.congr calm.stored calm.writes fun _ _ mem => (calm.mem_trace id).mp mem

/-- With nothing under way, what was reported is in the row. -/
theorem Saved.stored {s : State Blob} (saved : Saved lfa s) {T : TeamId} {reported : Finset Link}
    (mem : .reported T reported ∈ s.trace) (quiet : ∀ write ∈ s.writes, write.1 ≠ T) :
    reported ⊆ storedLinks lfa s T :=
  (saved.reported T reported mem).2 quiet

theorem mem_update_trace {s : State Blob} {c : AuthConnection} {received links : Finset Link}
    {T : TeamId} (mem : .reported T links ∈ (s.update lfa c received).trace) :
    .reported T links ∈ s.trace ∨ T = c.communityId ∧ links = received := by
  rw [update_eq] at mem
  rcases List.mem_append.mp mem with mem | mem
  · exact .inl mem
  · injection List.mem_singleton.mp mem with same links
    exact .inr ⟨same, links⟩

/-- What the listener writes has what the row has and what was received. -/
theorem Saved.update_listened (roundTrips : ∀ team, lfa.loadTeam (lfa.save team) = some team)
    {s : State Blob} (saved : Saved lfa s) {c : AuthConnection} {received : Finset Link}
    (listens : c.sigChain.listens = true) (quiet : s.writes = [])
    (own : c.sigChain.teamId = c.communityId)
    (grows : storedLinks lfa s c.communityId ⊆ s.links c.sigChain ∪ received) :
    Saved lfa (s.update lfa c received) := by
  have writes : (s.update lfa c received).writes = [listenerWrite lfa s c received] := by
    rw [update_eq, quiet]
    exact if_pos listens
  have links : linksOf lfa (listenerWrite lfa s c received).2 =
      s.links c.sigChain ∪ received := by
    unfold linksOf listenerWrite
    rw [roundTrips]
  have stored (T : TeamId) : storedLinks lfa (s.update lfa c received) T = storedLinks lfa s T := by
    apply storedLinks_congr
    rw [update_eq]
  have before (T : TeamId) (links : Finset Link) (mem : .reported T links ∈ s.trace) :
      links ⊆ storedLinks lfa s T := by
    apply saved.stored mem
    simp [quiet]
  refine ⟨by rw [writes]; exact Nat.le_refl 1, ?_, ?_⟩
  · intro write mem
    rw [writes] at mem
    rw [List.mem_singleton.mp mem, links, stored]
    show storedLinks lfa s c.sigChain.teamId ⊆ _
    rw [own]
    exact grows
  · intro T reported mem
    rw [writes, stored]
    constructor
    · intro write isWrite isTeam
      rw [List.mem_singleton.mp isWrite] at isTeam ⊢
      rw [links]
      have isTeam : c.communityId = T := own.symm.trans isTeam
      rcases mem_update_trace mem with earlier | ⟨_, rfl⟩
      · have inRow := before T reported earlier
        rw [← isTeam] at inRow
        exact inRow.trans grows
      · exact Finset.subset_union_right
    · intro others
      rcases mem_update_trace mem with earlier | ⟨isTeam, _⟩
      · exact before T reported earlier
      · exact absurd (own.trans isTeam.symm) (others _ (List.mem_singleton_self _))

/-- Without a listener there is no write, so the row must have what was received. -/
theorem Saved.update_unlistened {s : State Blob} (saved : Saved lfa s) {c : AuthConnection}
    {received : Finset Link} (listens : c.sigChain.listens = false)
    (inRow : received ⊆ storedLinks lfa s c.communityId) :
    Saved lfa (s.update lfa c received) := by
  have writes : (s.update lfa c received).writes = s.writes := by
    rw [update_eq]
    simp [listens]
  have stored (T : TeamId) : storedLinks lfa (s.update lfa c received) T = storedLinks lfa s T := by
    apply storedLinks_congr
    rw [update_eq]
  refine ⟨by rw [writes]; exact saved.single, ?_, ?_⟩
  · intro write mem
    rw [stored]
    exact saved.grows write (writes ▸ mem)
  · intro T reported mem
    rw [writes, stored]
    rcases mem_update_trace mem with earlier | ⟨rfl, rfl⟩
    · exact saved.reported T reported earlier
    · refine ⟨fun write isWrite isTeam => ?_, fun _ => inRow⟩
      have grows := saved.grows write isWrite
      rw [isTeam] at grows
      exact inRow.trans grows

/-- **A reported update is kept.** -/
theorem Saved.update (roundTrips : ∀ team, lfa.loadTeam (lfa.save team) = some team)
    {s : State Blob} (saved : Saved lfa s) {c : AuthConnection} {received : Finset Link}
    (inTurn : WritesInTurn s (.updated c received))
    (keeps : KeepsGraph lfa s (.updated c received)) : Saved lfa (s.update lfa c received) := by
  dsimp only [KeepsGraph] at keeps
  split at keeps
  · next listens =>
    exact saved.update_listened roundTrips listens (inTurn listens) keeps.1 keeps.2
  · next unlistened =>
    exact saved.update_unlistened (Bool.eq_false_of_not_eq_true unlistened) keeps

/-- There is one write under way at most, so the one that completes was the only one. -/
theorem Saved.writes_eq {s : State Blob} (saved : Saved lfa s) {i : Nat} {write : TeamId × Blob}
    (issued : s.writes[i]? = some write) : s.writes = [write] ∧ s.writes.eraseIdx i = [] := by
  have single := saved.single
  cases isWrites : s.writes with
  | nil =>
    rw [isWrites] at issued
    cases issued
  | cons first rest =>
    rw [isWrites, List.length_cons] at single
    have alone : rest = [] := List.eq_nil_of_length_eq_zero (by omega)
    rw [isWrites, alone] at issued
    cases i with
    | zero =>
      cases issued
      rw [alone]
      exact ⟨rfl, rfl⟩
    | succ i => cases issued

/-- **A write that completes takes what it has into the row.** -/
theorem Saved.completeWrite {s : State Blob} (saved : Saved lfa s) (rows : Rows s) {i : Nat}
    {T : TeamId} {blob : Blob} (issued : s.writes[i]? = some (T, blob)) :
    Saved lfa (s.completeWrite i T blob true) := by
  obtain ⟨only, none_left⟩ := saved.writes_eq issued
  have inFlight : (T, blob) ∈ s.writes := only ▸ List.mem_singleton_self _
  have row : (true && (s.stored T).isSome) = true :=
    Option.isSome_iff_ne_none.mpr (rows.written _ inFlight)
  have writes : (s.completeWrite i T blob true).writes = [] := none_left
  have stored : (s.completeWrite i T blob true).stored =
      Function.update s.stored T (some blob) := if_pos row
  have noWrite (write : TeamId × Blob) : write ∉ (s.completeWrite i T blob true).writes := by
    rw [writes]
    exact List.not_mem_nil
  refine ⟨by rw [writes]; exact Nat.zero_le 1, fun write mem => absurd mem (noWrite write), ?_⟩
  intro T' reported mem
  refine ⟨fun write mem => absurd mem (noWrite write), fun _ => ?_⟩
  have mem : .reported T' reported ∈ s.trace := mem
  rw [storedLinks_update lfa stored]
  split
  · next same => exact (saved.reported T' reported mem).1 _ inFlight same.symm
  · next other =>
    apply saved.stored mem
    intro write isWrite
    rw [only] at isWrite
    rw [List.mem_singleton.mp isWrite]
    exact Ne.symm other

/-- A row that is inserted is one that nothing was reported for and nothing is written to. -/
theorem Saved.insert {s : State Blob} (saved : Saved lfa s) (rows : Rows s) {T : TeamId}
    {blob : Blob} (absent : s.stored T = none) :
    Saved lfa { s with stored := Function.update s.stored T (some blob) } := by
  let s' := { s with stored := Function.update s.stored T (some blob) }
  have links : ∀ T', storedLinks lfa s' T' =
      if T' = T then linksOf lfa blob else storedLinks lfa s T' := storedLinks_update lfa rfl
  refine ⟨saved.single, ?_, ?_⟩
  · intro write mem
    have other : write.1 ≠ T := by
      intro same
      exact rows.written write mem (same ▸ absent)
    rw [links, if_neg other]
    exact saved.grows write mem
  · intro T' reported mem
    obtain ⟨inWrite, inRow⟩ := saved.reported T' reported mem
    refine ⟨inWrite, fun quiet => ?_⟩
    rw [links]
    split
    · next same =>
      have empty : storedLinks lfa s T' = ∅ := by
        unfold storedLinks
        rw [same, absent]
      have nothing := inRow quiet
      rw [empty] at nothing
      exact nothing.trans (Finset.empty_subset _)
    · exact inRow quiet

end

/-! ## What is loaded has it -/

/-- An event that is not among the new ones was the last of a history before. -/
theorem sublist_of_not_mem (events : List Event) {trace new : List Event} {last : Event}
    (history : List.Sublist (events ++ [last]) (trace ++ new)) (notNew : last ∉ new) :
    List.Sublist (events ++ [last]) trace := by
  obtain ⟨earlier, later, isAppend, inTrace, inNew⟩ := List.sublist_append_iff.mp history
  rcases List.eq_nil_or_concat later with none_ | ⟨init, e, isConcat⟩
  · rw [isAppend, none_, List.append_nil]
    exact inTrace
  · rw [isConcat, List.concat_eq_append, ← List.append_assoc] at isAppend
    have same := (List.append_inj' isAppend rfl).2
    injection same with same
    rw [isConcat, List.concat_eq_append, ← same] at inNew
    exact absurd (inNew.subset (List.mem_append_right _ (List.mem_singleton_self _))) notNew

theorem Survives.append {s s' : State Blob} (survives : Survives s) {new : List Event}
    (trace : s'.trace = s.trace ++ new) (noLoad : ∀ T links, .loaded T links ∉ new) :
    Survives s' := by
  intro T reported links history
  rw [trace] at history
  exact survives T reported links
    (sublist_of_not_mem [_, _] history (noLoad T links))

theorem Survives.calm {s s' : State Blob} (survives : Survives s) (calm : Calm s s') :
    Survives s' := by
  obtain ⟨events, trace, ends⟩ := calm.trace
  apply survives.append trace
  intro T links mem
  exact ends _ mem

/-- A load that ends with what was reported. -/
theorem Survives.load {s s' : State Blob} (survives : Survives s) {T : TeamId}
    {links : Finset Link} (trace : s'.trace = s.trace ++ [.loaded T links])
    (has : ∀ reported, .reported T reported ∈ s.trace → reported ⊆ links) : Survives s' := by
  intro T' reported links' history
  by_cases same : Event.loaded T' links' = .loaded T links
  · injection same with sameTeam sameLinks
    subst sameTeam sameLinks
    rw [trace] at history
    have earlier := history.subset (List.mem_cons_self ..)
    apply has
    rcases List.mem_append.mp earlier with mem | mem
    · exact mem
    · cases List.mem_singleton.mp mem
  · rw [trace] at history
    apply survives T' reported links'
    apply sublist_of_not_mem [_, _] history
    intro mem
    exact same (List.mem_singleton.mp mem)

end State

/-! ## Steps and runs -/

section
variable {lfa : Lfa Blob}

open State

theorem rows_step {s s' : State Blob} {a : Action Blob} (wired : Wired s) (rows : Rows s)
    (keeps : KeepsGraph lfa s a) (taken : step lfa s a = some s') : Rows s' := by
  cases step_eq_some taken with
  | waits _ _ unstored =>
    apply rows.setTask
    intro request team isTask
    exact absurd isTask (unstored request team)
  | @loads k caller sigChain team waiting _ =>
    dsimp only [KeepsGraph] at keeps
    rw [waiting] at keeps
    have row : s.stored caller.teamId ≠ none := by
      rw [keeps.1]
      exact Option.some_ne_none sigChain
    apply Rows.setTask
    · exact (rows.place team true (s.load caller.teamId team).2 row).retrace _
    · intro request team isTask
      cases isTask
  | @receives k env payload socketId found _ =>
    obtain ⟨events, received, _⟩ := receive_eq (s.setTask k .idle) payload socketId found
    rw [received]
    exact (rows.mono (s.idle_shrinks k)).retrace _
  | signsIn => exact (rows.mono (s.idle_shrinks _)).startAuthSyncConnection _ _ _ _
  | @adds k request team _ _ =>
    apply (rows.insert request.teamId request.sigChain).setTask
    intro request' team' isTask
    cases isTask
    simp
  | @creates k env request team waiting =>
    have idle := rows.mono (s.idle_shrinks k)
    have placed := idle.place team false
      { teamId := request.teamId, sigChain := ((s.setTask k .idle).newChain team false).2 }
      (rows.added k request team waiting)
    exact placed.startAuthSyncConnection _ _ _ _
  | connected => exact ⟨rows.started, rows.cached, rows.added, rows.written⟩
  | disconnected => exact rows.mono (s.lfaDisconnected_shrinks _ _)
  | @updated c received started =>
    apply rows.update
    intro listens
    dsimp only [KeepsGraph] at keeps
    rw [if_pos listens] at keeps
    rw [keeps.1]
    exact rows.started c started
  | socketDisconnected => exact rows.mono (s.stop_shrinks _ _ _)
  | writeCompleted => exact rows.completeWrite _ _ _ _
  | sweep => exact rows.mono (sweep_shrinks wired.keyed _)
  | restart => exact rows.mono s.restart_shrinks

theorem saved_step (roundTrips : ∀ team, lfa.loadTeam (lfa.save team) = some team)
    {s s' : State Blob} {a : Action Blob} (wired : Wired s) (rows : Rows s) (saved : Saved lfa s)
    (inTurn : WritesInTurn s a) (keeps : KeepsGraph lfa s a)
    (taken : step lfa s a = some s') : Saved lfa s' := by
  cases step_eq_some taken with
  | waits => exact saved.congr rfl rfl fun _ _ mem => mem
  | loads =>
    refine saved.congr rfl rfl ?_
    intro T links mem
    rcases List.mem_append.mp mem with mem | mem
    · exact mem
    · cases List.mem_singleton.mp mem
  | @receives k env payload socketId found _ =>
    obtain ⟨events, received, written⟩ := receive_eq (s.setTask k .idle) payload socketId found
    rw [received]
    refine saved.congr rfl rfl ?_
    intro T links mem
    rcases List.mem_append.mp mem with mem | mem
    · exact mem
    · obtain ⟨c, status, peer, isEvent⟩ := written _ mem
      cases isEvent
  | @signsIn k env T userId socketId _ _ =>
    apply saved.calm
    apply (Calm.of_shrinks (s.idle_shrinks k)).trans
    exact startAuthSyncConnection_calm _ userId T socketId env
  | adds _ absent =>
    exact (saved.insert rows absent).congr rfl rfl fun _ _ mem => mem
  | @creates k env request team _ =>
    have put : Saved lfa ((s.setTask k .idle).putCreated request.teamId team) :=
      saved.congr rfl rfl fun _ _ mem => mem
    exact put.calm (startAuthSyncConnection_calm _ _ _ _ env)
  | connected => exact saved.congr rfl rfl fun _ _ mem => mem
  | disconnected => exact saved.calm (.of_shrinks (s.lfaDisconnected_shrinks _ _))
  | updated => exact saved.update roundTrips inTurn keeps
  | socketDisconnected => exact saved.calm (.of_shrinks (s.stop_shrinks _ _ _))
  | writeCompleted issued =>
    have succeeds := inTurn
    dsimp only [WritesInTurn] at succeeds
    subst succeeds
    exact saved.completeWrite rows issued
  | sweep => exact saved.calm (.of_shrinks (sweep_shrinks wired.keyed _))
  | restart => exact saved.calm (.of_shrinks s.restart_shrinks)

theorem survives_step {s s' : State Blob} {a : Action Blob} (wired : Wired s)
    (saved : Saved lfa s) (survives : Survives s) (keeps : KeepsGraph lfa s a)
    (taken : step lfa s a = some s') : Survives s' := by
  cases step_eq_some taken with
  | waits => exact survives
  | @loads k caller sigChain team waiting isTeam =>
    dsimp only [KeepsGraph] at keeps
    rw [waiting] at keeps
    obtain ⟨row, quiet⟩ := keeps
    refine survives.load rfl ?_
    intro reported mem
    have inRow := saved.stored mem quiet
    unfold storedLinks linksOf at inRow
    rw [row] at inRow
    dsimp only at inRow
    rw [isTeam] at inRow
    exact inRow
  | @receives k env payload socketId found _ =>
    obtain ⟨events, received, written⟩ := receive_eq (s.setTask k .idle) payload socketId found
    rw [received]
    refine survives.append rfl ?_
    intro T links mem
    obtain ⟨c, status, peer, isEvent⟩ := written _ mem
    cases isEvent
  | @signsIn k env T userId socketId _ _ =>
    apply survives.calm
    apply (Calm.of_shrinks (s.idle_shrinks k)).trans
    exact startAuthSyncConnection_calm _ userId T socketId env
  | adds => exact survives
  | @creates k env request team _ =>
    have put : Survives ((s.setTask k .idle).putCreated request.teamId team) := survives
    exact put.calm (startAuthSyncConnection_calm _ _ _ _ env)
  | connected => exact survives
  | disconnected => exact survives.calm (.of_shrinks (s.lfaDisconnected_shrinks _ _))
  | @updated c received _ =>
    have trace : (s.update lfa c received).trace = s.trace ++ [.reported c.communityId received] := by
      rw [update_eq]
    apply survives.append trace
    intro T links mem
    cases List.mem_singleton.mp mem
  | socketDisconnected => exact survives.calm (.of_shrinks (s.stop_shrinks _ _ _))
  | writeCompleted => exact survives
  | sweep => exact survives.calm (.of_shrinks (sweep_shrinks wired.keyed _))
  | restart => exact survives.calm (.of_shrinks s.restart_shrinks)

end

/-- **Updates survive eviction and restart**, in every run whose writes succeed one after another
and whose updates and loads keep the graph. -/
theorem updates_survive (lfa : Lfa Blob)
    (roundTrips : ∀ team, lfa.loadTeam (lfa.save team) = some team)
    (stored : TeamId → Option Blob) (as : List (Action Blob))
    (along : Along (step lfa) (fun s a => s.WritesInTurn a ∧ s.KeepsGraph lfa a)
      (.start stored) as) :
    Throughout (step lfa) State.Survives (.start stored) as := by
  refine throughout_of_along (I := fun s => s.Wired ∧ s.Rows ∧ s.Saved lfa ∧ s.Survives) ?_
    (fun _ inv => inv.2.2.2) ?_ along
  · intro s a s' ⟨wired, rows, saved, survives⟩ ⟨inTurn, keeps⟩ taken
    exact ⟨wired_step wired taken, rows_step wired rows keeps taken,
      saved_step roundTrips wired rows saved inTurn keeps taken,
      survives_step wired saved survives keeps taken⟩
  · refine ⟨.start stored, .start stored, ⟨Nat.zero_le 1, ?_, ?_⟩, ?_⟩
    · exact fun _ mem => absurd mem List.not_mem_nil
    · exact fun _ _ mem => absurd mem List.not_mem_nil
    · intro T reported links history
      cases history

/-! ## A community that entered memory through get, and one through create -/

/-- The first connection of a process: the chain took the number 0 and the map the number 1. -/
def firstConnection (listens : Bool) : AuthConnection where
  id := 2
  userId := "alice"
  communityId := "team"
  sigChain := { id := 0, teamId := "team", listens := listens }
  socketId := "socket"

/-- An update is reported, the connection closes, the community is dropped and read again. -/
def reloaded (listens : Bool) (written : List (Action Team)) : List (Action Team) :=
  [.connected (firstConnection listens) "alice",
    .updated (firstConnection listens) {"root", "invite"}] ++ written ++
  [.disconnected (firstConnection listens) 0, .sweep 300000, .get 0 (.reader "team") false,
    .communityRead 0 true, .keysRetrieved 0 true]

def quietEnv : State.Env := { closes := true, dies := false, now := 0 }

/-- The community is read from storage when its member signs in. -/
def throughGet : List (Action Team) :=
  [.get 0 (.signIn "team" "alice" "socket") false, .communityRead 0 true, .keysRetrieved 0 true,
    .resume 0 quietEnv] ++ reloaded true [.writeCompleted 0 true]

/-- The community is created, and its creator is connected at once. -/
def throughCreate : List (Action Team) :=
  [.create 0
      { userId := "alice"
        teamId := "team"
        sigChain := { id := "team", links := {"root"} }
        socketId := "socket" },
    .serverKeysRetrieved 0 true, .keyringStored 0 true, .communityAdded 0 true,
    .created 0 quietEnv] ++ reloaded false []

theorem updates_survive_through_get :
    Throughout (step (.plain fun _ => ["alice"])) State.Survives
      (.start fun _ => some { id := "team", links := {"root"} }) throughGet :=
  updates_survive _ (fun _ => rfl) _ _ (by decide)

/-- A community that was created has lost its update when it is read again. -/
theorem created_update_lost :
    Along (step (.plain fun _ => ["alice"])) State.WritesInTurn (.start fun _ => none) throughCreate ∧
      ¬ Throughout (step (.plain fun _ => ["alice"])) State.Survives (.start fun _ => none)
        throughCreate := by
  refine ⟨by decide, fun throughout => ?_⟩
  have survives := throughout.of_run rfl
  have kept := survives "team" {"root", "invite"} {"root"} (by decide)
  exact absurd kept (by decide)

end QuietStorage.Communities
