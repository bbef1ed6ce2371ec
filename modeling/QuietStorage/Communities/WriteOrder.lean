import QuietStorage.Communities.Persistence

/-!
# Communities.WriteOrder — which snapshot of a chain stays in the row

The 'update' listener of a chain writes a snapshot of the whole graph for every event, and waits for
no earlier write. `StoresNewest` is what the row should hold once nothing is under way: the newest
state of the chain, with every link that a completed write carried.

`newest_stored` proves it for the runs after a load in which the newest write of the row does not
complete before an older one (`NewestAlone`). The invariant is `Latest`: the last write that is under
way carries the newest state, or there is none and the row has it.
-/

set_option autoImplicit false

namespace QuietStorage.Communities

open Lib State

variable {Blob : Type}

/-! ## Writes that have completed -/

/-- A state, with the writes that have completed since a beginning. -/
structure Written (Blob : Type) where
  state : State Blob
  completed : List (TeamId × Blob) := []

/-- The write that an action completes with success. -/
def completes (s : State Blob) : Action Blob → List (TeamId × Blob)
  | .writeCompleted i true => s.writes[i]?.toList
  | _ => []

section
variable (lfa : Lfa Blob)

/-- `step`, with a note of the writes that complete. -/
def writtenStep (w : Written Blob) (a : Action Blob) : Option (Written Blob) :=
  (step lfa w.state a).map fun s' => ⟨s', w.completed ++ completes w.state a⟩

/-! ## The property and its condition -/

/-- The graph is a serialization of the team: what LFA saves for it, or what it was loaded from. -/
def Serializes (blob : Blob) (team : Team) : Prop :=
  blob = lfa.save team ∨ lfa.loadTeam blob = some team

/-- The write is a snapshot of the chain with links that the chain has. -/
def Snapshot (s : State Blob) (sigChain : SigChain) (write : TeamId × Blob) : Prop :=
  ∃ links, links ⊆ s.links sigChain ∧ write.2 = lfa.save ⟨sigChain.teamId, links⟩

/-- With no write to it under way, the row of the chain's team has the newest state of the chain, and
with it all that a completed write carried. -/
def StoresNewest (sigChain : SigChain) (w : Written Blob) : Prop :=
  (∀ write ∈ w.state.writes, write.1 ≠ sigChain.teamId) →
    (∃ blob, w.state.stored sigChain.teamId = some blob ∧
      Serializes lfa blob (w.state.team sigChain)) ∧
    ∀ write ∈ w.completed, write.1 = sigChain.teamId → Snapshot lfa w.state sigChain write

end

/-- The team whose row the `i`-th write under way is for. -/
def rowOf (s : State Blob) (i : Nat) : Option TeamId := s.writes[i]?.map Prod.fst

/-- Only this chain reports updates for its team, and every write to its row succeeds. -/
def OnlyChain (sigChain : SigChain) (w : Written Blob) : Action Blob → Prop
  | .updated c _ => c.sigChain = sigChain ∨ c.sigChain.teamId ≠ sigChain.teamId
  | .writeCompleted i false => rowOf w.state i ≠ some sigChain.teamId
  | _ => True

/-- The newest write to the row completes when it is the only one under way. -/
def NewestAlone (sigChain : SigChain) (w : Written Blob) : Action Blob → Prop
  | .writeCompleted i _ => rowOf w.state i = some sigChain.teamId →
    (∀ write ∈ w.state.writes.drop (i + 1), write.1 ≠ sigChain.teamId) →
      ∀ write ∈ w.state.writes.take i, write.1 ≠ sigChain.teamId
  | _ => True

instance decidableOnlyChain (sigChain : SigChain) (w : Written Blob) (a : Action Blob) :
    Decidable (OnlyChain sigChain w a) :=
  match a with
  | .updated _ _ => inferInstanceAs (Decidable (_ ∨ _))
  | .writeCompleted i false => inferInstanceAs (Decidable (rowOf w.state i ≠ some _))
  | .get _ _ _ | .communityRead _ _ | .keysRetrieved _ _ | .resume _ _ | .create _ _
  | .serverKeysRetrieved _ _ | .keyringStored _ _ | .communityAdded _ _ | .created _ _
  | .connected _ _ | .disconnected _ _ | .socketDisconnected _ _ _ | .writeCompleted _ true
  | .sweep _ | .restart => .isTrue trivial

instance decidableNewestAlone (sigChain : SigChain) (w : Written Blob) (a : Action Blob) :
    Decidable (NewestAlone sigChain w a) :=
  match a with
  | .writeCompleted i _ => inferInstanceAs (Decidable (rowOf w.state i = some sigChain.teamId →
      (∀ write ∈ w.state.writes.drop (i + 1), write.1 ≠ sigChain.teamId) →
        ∀ write ∈ w.state.writes.take i, write.1 ≠ sigChain.teamId))
  | .get _ _ _ | .communityRead _ _ | .keysRetrieved _ _ | .resume _ _ | .create _ _
  | .serverKeysRetrieved _ _ | .keyringStored _ _ | .communityAdded _ _ | .created _ _
  | .connected _ _ | .disconnected _ _ | .updated _ _ | .socketDisconnected _ _ _ | .sweep _
  | .restart => .isTrue trivial

/-! ## The last write under way -/

section
variable {lfa : Lfa Blob}

/-- The newest write to the row carries the newest state of the chain, or there is none and the row
has it. -/
def Latest (lfa : Lfa Blob) (sigChain : SigChain) (s : State Blob) : Prop :=
  (∃ old new, s.writes = old ++ (sigChain.teamId, lfa.save (s.team sigChain)) :: new ∧
    ∀ write ∈ new, write.1 ≠ sigChain.teamId) ∨
  (∀ write ∈ s.writes, write.1 ≠ sigChain.teamId) ∧
    ∃ blob, s.stored sigChain.teamId = some blob ∧ Serializes lfa blob (s.team sigChain)

/-- **The invariant** of a loaded chain. -/
structure Follows (lfa : Lfa Blob) (sigChain : SigChain) (w : Written Blob) : Prop where
  listens : sigChain.listens = true
  low : sigChain.id < w.state.next
  row : w.state.stored sigChain.teamId ≠ none
  latest : Latest lfa sigChain w.state
  pending : ∀ write ∈ w.state.writes, write.1 = sigChain.teamId →
    Snapshot lfa w.state sigChain write
  completed : ∀ write ∈ w.completed, write.1 = sigChain.teamId →
    Snapshot lfa w.state sigChain write

/-- What the invariant is for. -/
theorem Follows.storesNewest {sigChain : SigChain} {w : Written Blob}
    (follows : Follows lfa sigChain w) : StoresNewest lfa sigChain w := by
  intro quiet
  refine ⟨?_, follows.completed⟩
  rcases follows.latest with ⟨old, new, writes, _⟩ | ⟨_, stored⟩
  · have mem : (sigChain.teamId, lfa.save (w.state.team sigChain)) ∈ w.state.writes := by
      rw [writes]
      exact List.mem_append_right old List.mem_cons_self
    exact absurd rfl (quiet _ mem)
  · exact stored

/-- An operation that leaves the row, its writes and the links of the chain alone. -/
theorem Follows.congr {sigChain : SigChain} {w : Written Blob} {s' : State Blob}
    (follows : Follows lfa sigChain w)
    (stored : s'.stored sigChain.teamId = w.state.stored sigChain.teamId)
    (writes : s'.writes = w.state.writes)
    (links : s'.links sigChain = w.state.links sigChain) (next : w.state.next ≤ s'.next) :
    Follows lfa sigChain ⟨s', w.completed ++ []⟩ where
  listens := follows.listens
  low := follows.low.trans_le next
  row := by
    rw [stored]
    exact follows.row
  latest := by
    unfold Latest State.team
    rw [stored, writes, links]
    exact follows.latest
  pending := by
    unfold Snapshot
    rw [writes, links]
    exact follows.pending
  completed := by
    unfold Snapshot
    rw [links, List.append_nil]
    exact follows.completed

theorem Follows.calm {sigChain : SigChain} {w : Written Blob} {s' : State Blob}
    (follows : Follows lfa sigChain w) (calm : Calm w.state s') (next : w.state.next ≤ s'.next) :
    Follows lfa sigChain ⟨s', w.completed ++ []⟩ := by
  apply follows.congr _ calm.writes _ next
  · rw [calm.stored]
  · rw [calm.links]

/-- A snapshot of the chain stays one as the chain grows. -/
theorem Snapshot.mono {s s' : State Blob} {sigChain : SigChain} {write : TeamId × Blob}
    (snapshot : Snapshot lfa s sigChain write)
    (grows : s.links sigChain ⊆ s'.links sigChain) : Snapshot lfa s' sigChain write := by
  obtain ⟨links, known, saved⟩ := snapshot
  exact ⟨links, known.trans grows, saved⟩

/-- An update of the chain issues the newest write. -/
theorem Follows.update {sigChain : SigChain} {w : Written Blob}
    (follows : Follows lfa sigChain w) {c : AuthConnection} (own : c.sigChain = sigChain)
    (received : Finset Link) :
    Follows lfa sigChain ⟨w.state.update lfa c received, w.completed ++ []⟩ := by
  subst own
  have grows : w.state.links c.sigChain ⊆ (w.state.update lfa c received).links c.sigChain := by
    rw [update_eq]
    simp only [Function.update_self]
    exact Finset.subset_union_left
  have writes : (w.state.update lfa c received).writes = w.state.writes ++
      [(c.sigChain.teamId, lfa.save ((w.state.update lfa c received).team c.sigChain))] := by
    rw [update_eq]
    simp only [follows.listens, if_true, State.team, Function.update_self]
    rfl
  refine ⟨follows.listens, ?_, ?_, ?_, ?_, ?_⟩
  · rw [update_eq]
    exact follows.low
  · rw [update_eq]
    exact follows.row
  · exact .inl ⟨w.state.writes, [], writes, fun _ mem => absurd mem List.not_mem_nil⟩
  · intro write mem isRow
    rw [writes] at mem
    rcases List.mem_append.mp mem with mem | mem
    · exact (follows.pending write mem isRow).mono grows
    · rw [List.mem_singleton.mp mem]
      exact ⟨_, Finset.Subset.refl _, rfl⟩
  · intro write mem isRow
    rw [List.append_nil] at mem
    exact (follows.completed write mem isRow).mono grows

/-- An update of a chain of another team. -/
theorem Follows.update_other {sigChain : SigChain} {w : Written Blob}
    (follows : Follows lfa sigChain w) {c : AuthConnection}
    (other : c.sigChain.teamId ≠ sigChain.teamId) (received : Finset Link) :
    Follows lfa sigChain ⟨w.state.update lfa c received, w.completed ++ []⟩ := by
  have otherChain : sigChain ≠ c.sigChain := fun same => other (same ▸ rfl)
  have links : (w.state.update lfa c received).links sigChain = w.state.links sigChain := by
    rw [update_eq]
    exact Function.update_of_ne otherChain _ _
  have writes : (w.state.update lfa c received).writes = w.state.writes ∨
      ∃ blob, (w.state.update lfa c received).writes =
        w.state.writes ++ [(c.sigChain.teamId, blob)] := by
    rw [update_eq]
    dsimp only
    split
    · exact .inr ⟨_, rfl⟩
    · exact .inl rfl
  rcases writes with same | ⟨blob, writes⟩
  · apply follows.congr _ same links
    · rw [update_eq]
    · rw [update_eq]
  · refine ⟨follows.listens, ?_, ?_, ?_, ?_, ?_⟩
    · rw [update_eq]
      exact follows.low
    · rw [update_eq]
      exact follows.row
    · have team : (w.state.update lfa c received).team sigChain = w.state.team sigChain :=
        congrArg (Team.mk sigChain.teamId) links
      have stored : (w.state.update lfa c received).stored = w.state.stored := by rw [update_eq]
      unfold Latest
      rw [team, writes, stored]
      rcases follows.latest with ⟨old, new, isWrites, above⟩ | ⟨quiet, stores⟩
      · refine .inl ⟨old, new ++ [(c.sigChain.teamId, blob)], ?_, ?_⟩
        · rw [isWrites, List.append_assoc, List.cons_append]
        · intro write mem
          rcases List.mem_append.mp mem with mem | mem
          · exact above write mem
          · rw [List.mem_singleton.mp mem]
            exact other
      · refine .inr ⟨?_, stores⟩
        intro write mem
        rcases List.mem_append.mp mem with mem | mem
        · exact quiet write mem
        · rw [List.mem_singleton.mp mem]
          exact other
    · intro write mem isRow
      rw [writes] at mem
      rcases List.mem_append.mp mem with mem | mem
      · exact (follows.pending write mem isRow).mono (Finset.Subset.antisymm_iff.mp links).2
      · rw [List.mem_singleton.mp mem] at isRow
        exact absurd isRow other
    · intro write mem isRow
      rw [List.append_nil] at mem
      exact (follows.completed write mem isRow).mono (Finset.Subset.antisymm_iff.mp links).2

/-- Where a write is taken from: before a given one, after it, or it is that one. -/
theorem eraseIdx_cases {α : Type} (old new : List α) (x : α) {i : Nat} {y : α}
    (isAt : (old ++ x :: new)[i]? = some y) :
    (∃ old', (old ++ x :: new).eraseIdx i = old' ++ x :: new) ∨
      (i = old.length ∧ y = x ∧ (old ++ x :: new).eraseIdx i = old ++ new) ∨
      ∃ new', (old ++ x :: new).eraseIdx i = old ++ x :: new' ∧ new' ⊆ new ∧ y ∈ new := by
  rcases Nat.lt_or_ge i old.length with before | after
  · exact .inl ⟨old.eraseIdx i, List.eraseIdx_append_of_lt_length before _⟩
  · rw [List.eraseIdx_append_of_length_le after]
    rw [List.getElem?_append_right after] at isAt
    cases isOffset : i - old.length with
    | zero =>
      rw [isOffset, List.getElem?_cons_zero] at isAt
      refine .inr (.inl ⟨?_, (Option.some.inj isAt).symm, ?_⟩)
      · omega
      · rw [List.eraseIdx_cons_zero]
    | succ j =>
      rw [isOffset, List.getElem?_cons_succ] at isAt
      refine .inr (.inr ⟨new.eraseIdx j, ?_, List.eraseIdx_subset, List.mem_of_getElem? isAt⟩)
      rw [List.eraseIdx_cons_succ]

/-- A write to another row completes, or fails. -/
theorem Follows.complete_other {sigChain : SigChain} {w : Written Blob}
    (follows : Follows lfa sigChain w) {i : Nat} {T : TeamId} {blob : Blob} {succeeds : Bool}
    (issued : w.state.writes[i]? = some (T, blob)) (other : T ≠ sigChain.teamId) :
    Follows lfa sigChain ⟨w.state.completeWrite i T blob succeeds,
      w.completed ++ completes w.state (.writeCompleted i succeeds)⟩ := by
  have stored : (w.state.completeWrite i T blob succeeds).stored sigChain.teamId =
      w.state.stored sigChain.teamId := by
    unfold completeWrite
    dsimp only
    split
    · exact Function.update_of_ne other.symm _ _
    · rfl
  refine ⟨follows.listens, follows.low, ?_, ?_, ?_, ?_⟩
  · rw [stored]
    exact follows.row
  · unfold Latest
    rw [stored]
    rcases follows.latest with ⟨old, new, writes, above⟩ | ⟨quiet, stores⟩
    · rw [writes] at issued
      unfold completeWrite
      dsimp only
      rw [writes]
      rcases eraseIdx_cases old new _ issued with ⟨old', erased⟩ | ⟨_, same, _⟩ |
        ⟨new', erased, within, _⟩
      · exact .inl ⟨old', new, erased, above⟩
      · exact absurd (congrArg Prod.fst same) other
      · exact .inl ⟨old, new', erased, fun write mem => above write (within mem)⟩
    · exact .inr ⟨fun write mem => quiet write (List.mem_of_mem_eraseIdx mem), stores⟩
  · intro write mem
    exact follows.pending write (List.mem_of_mem_eraseIdx mem)
  · intro write mem isRow
    rcases List.mem_append.mp mem with mem | mem
    · exact follows.completed write mem isRow
    · cases succeeds with
      | false => exact absurd mem List.not_mem_nil
      | true =>
        rw [completes, issued, Option.toList_some] at mem
        rw [List.mem_singleton.mp mem] at isRow
        exact absurd isRow other

/-- A write to the row completes: if it is the newest, the row has the newest state. -/
theorem Follows.complete {sigChain : SigChain} {w : Written Blob}
    (follows : Follows lfa sigChain w) {i : Nat} {blob : Blob}
    (issued : w.state.writes[i]? = some (sigChain.teamId, blob))
    (alone : NewestAlone sigChain w (.writeCompleted i true)) :
    Follows lfa sigChain ⟨w.state.completeWrite i sigChain.teamId blob true,
      w.completed ++ completes w.state (.writeCompleted i true)⟩ := by
  have stored : (w.state.completeWrite i sigChain.teamId blob true).stored sigChain.teamId =
      some blob := by
    have row : (w.state.stored sigChain.teamId).isSome = true :=
      Option.isSome_iff_ne_none.mpr follows.row
    unfold completeWrite
    dsimp only
    rw [if_pos (by rw [row]; rfl)]
    exact Function.update_self ..
  refine ⟨follows.listens, follows.low, ?_, ?_, ?_, ?_⟩
  · rw [stored]
    exact Option.some_ne_none blob
  · unfold Latest
    rw [stored]
    rcases follows.latest with ⟨old, new, writes, above⟩ | ⟨quiet, _⟩
    · have isAt := issued
      rw [writes] at isAt
      unfold completeWrite
      dsimp only
      rw [writes]
      rcases eraseIdx_cases old new _ isAt with ⟨old', erased⟩ | ⟨last, same, erased⟩ |
        ⟨new', erased, within, mem⟩
      · exact .inl ⟨old', new, erased, above⟩
      · -- the newest write: no older one is under way
        have drop : w.state.writes.drop (i + 1) = new := by
          rw [writes, last, List.drop_append, List.drop_eq_nil_of_le (Nat.le_succ _)]
          simp
        have take : w.state.writes.take i = old := by
          rw [writes, last, List.take_left]
        have isRow : rowOf w.state i = some sigChain.teamId := by rw [rowOf, issued, Option.map_some]
        have older := alone isRow (by rw [drop]; exact above)
        rw [take] at older
        refine .inr ⟨?_, blob, rfl, .inl (congrArg Prod.snd same)⟩
        rw [erased]
        intro write mem
        exact (List.mem_append.mp mem).elim (older write) (above write)
      · exact absurd rfl (above _ mem)
    · exact absurd rfl (quiet _ (List.mem_of_getElem? issued))
  · intro write mem
    exact follows.pending write (List.mem_of_mem_eraseIdx mem)
  · intro write mem isRow
    rcases List.mem_append.mp mem with mem | mem
    · exact follows.completed write mem isRow
    · rw [completes, issued, Option.toList_some] at mem
      rw [List.mem_singleton.mp mem]
      exact follows.pending _ (List.mem_of_getElem? issued) rfl

/-! ## Steps and runs -/

theorem completes_eq_nil (s : State Blob) {a : Action Blob}
    (other : ∀ i succeeds, a ≠ .writeCompleted i succeeds) : completes s a = [] := by
  cases a with
  | writeCompleted i succeeds => exact absurd rfl (other i succeeds)
  | _ => rfl

/-- Starting a connection takes serial numbers and gives none back. -/
theorem startAuthSyncConnection_next (s : State Blob) (userId : UserId) (T : TeamId)
    (socketId : SocketId) (env : Env) :
    s.next ≤ ((s.startAuthSyncConnection userId T socketId env).getD s).next := by
  rcases s.startAuthSyncConnection_getD userId T socketId env with shrinks | starts
  · exact shrinks.next
  · obtain ⟨m, ref, between, _, _, before, after⟩ := starts
    exact (before.next.trans (Nat.le_succ _)).trans after.next

/-- A new chain leaves the links of the chain alone. -/
theorem Follows.newChain {sigChain : SigChain} {w : Written Blob}
    (follows : Follows lfa sigChain w) (team : Team) (listens : Bool) :
    (w.state.newChain team listens).1.links sigChain = w.state.links sigChain := by
  apply Function.update_of_ne
  intro same
  exact Nat.ne_of_lt follows.low (congrArg SigChain.id same)

theorem follows_step {sigChain : SigChain} {w w' : Written Blob} {a : Action Blob}
    (wired : Wired w.state) (follows : Follows lfa sigChain w) (only : OnlyChain sigChain w a)
    (alone : NewestAlone sigChain w a) (stepped : writtenStep lfa w a = some w') :
    Follows lfa sigChain w' := by
  obtain ⟨s', taken, rfl⟩ := Option.map_eq_some_iff.mp stepped
  by_cases isWrite : ∃ i succeeds, a = .writeCompleted i succeeds
  · obtain ⟨i, succeeds, rfl⟩ := isWrite
    dsimp only [step] at taken
    split at taken
    · cases taken
    · next T blob issued =>
      cases taken
      by_cases own : T = sigChain.teamId
      · subst own
        cases succeeds with
        | true => exact follows.complete issued alone
        | false =>
          have isRow : rowOf w.state i = some sigChain.teamId := by
            rw [rowOf, issued, Option.map_some]
          exact absurd isRow only
      · exact follows.complete_other issued own
  · rw [completes_eq_nil w.state fun i succeeds isAction => isWrite ⟨i, succeeds, isAction⟩]
    cases step_eq_some taken with
    | waits => exact follows.congr rfl rfl rfl (Nat.le_refl _)
    | @loads k caller _ team =>
      exact follows.congr rfl rfl (follows.newChain team true) (Nat.le_succ _)
    | @receives k env payload socketId m _ =>
      obtain ⟨events, received, _⟩ := receive_eq (w.state.setTask k .idle) payload socketId m
      rw [received]
      exact follows.congr rfl rfl rfl (Nat.le_refl _)
    | @signsIn k env T userId socketId =>
      have idle := Calm.of_shrinks (w.state.idle_shrinks k)
      exact follows.calm (idle.trans (startAuthSyncConnection_calm _ userId T socketId env))
        (startAuthSyncConnection_next (w.state.setTask k .idle) userId T socketId env)
    | @adds k request team _ absent =>
      have other : sigChain.teamId ≠ request.teamId := by
        intro same
        exact follows.row (same ▸ absent)
      exact follows.congr (Function.update_of_ne other _ _) rfl rfl (Nat.le_refl _)
    | @creates k env request team =>
      have put : Follows lfa sigChain
          ⟨(w.state.setTask k .idle).putCreated request.teamId team, w.completed ++ []⟩ :=
        follows.congr rfl rfl (follows.newChain team false) (Nat.le_succ _)
      rw [List.append_nil] at put
      exact put.calm (startAuthSyncConnection_calm _ _ _ _ env)
        (startAuthSyncConnection_next _ _ _ _ env)
    | connected => exact follows.congr rfl rfl rfl (Nat.le_refl _)
    | @disconnected c now =>
      have shrinks := w.state.lfaDisconnected_shrinks c now
      exact follows.calm (.of_shrinks shrinks) shrinks.next
    | @updated c received =>
      rcases only with own | other
      · exact follows.update own received
      · exact follows.update_other other received
    | @socketDisconnected c closes now =>
      have shrinks := w.state.stop_shrinks c closes now
      exact follows.calm (.of_shrinks shrinks) shrinks.next
    | writeCompleted => exact absurd ⟨_, _, rfl⟩ isWrite
    | @sweep now =>
      have shrinks := sweep_shrinks wired.keyed now
      exact follows.calm (.of_shrinks shrinks) shrinks.next
    | restart => exact follows.calm (.of_shrinks w.state.restart_shrinks) (Nat.le_refl _)

theorem wired_writtenStep {w w' : Written Blob} {a : Action Blob} (wired : Wired w.state)
    (stepped : writtenStep lfa w a = some w') : Wired w'.state := by
  obtain ⟨s', taken, rfl⟩ := Option.map_eq_some_iff.mp stepped
  exact wired_step wired taken

/-- A chain that was just loaded from the row of its own team, with no write to it under way. -/
theorem follows_load {s : State Blob} {T : TeamId} {blob : Blob} {team : Team} (k : TaskId)
    (task : Task Blob) (own : team.id = T) (isTeam : lfa.loadTeam blob = some team)
    (row : s.stored T = some blob) (quiet : ∀ write ∈ s.writes, write.1 ≠ T) :
    Follows lfa (s.load T team).2.sigChain ⟨(s.load T team).1.setTask k task, []⟩ := by
  subst own
  have isChain := (s.load_spec team.id team).2.1
  have links : ((s.load team.id team).1.setTask k task).team (s.newChain team true).2 = team :=
    congrArg (Team.mk team.id) (Function.update_self ..)
  rw [isChain]
  refine ⟨rfl, Nat.lt_succ_self s.next, ?_, ?_, ?_, ?_⟩
  · intro absent
    exact Option.some_ne_none blob (row.symm.trans absent)
  · refine .inr ⟨quiet, blob, row, .inr ?_⟩
    rw [links]
    exact isTeam
  · intro write mem isRow
    exact absurd isRow (quiet write mem)
  · exact fun _ mem => absurd mem List.not_mem_nil

end

/-- **A stored chain is the newest**, in every run after `get` has loaded it, as long as the newest
write of its row completes after the older ones. -/
theorem newest_stored (lfa : Lfa Blob) (stored : TeamId → Option Blob)
    (before as : List (Action Blob)) (k : TaskId) {caller : Caller} {s s' : State Blob}
    {blob : Blob} {team : Team} {m : ManagedCommunity}
    (ran : run (step lfa) (.start stored) before = some s)
    (waiting : s.tasks k = .retrievingKeys caller blob) (isTeam : lfa.loadTeam blob = some team)
    (loaded : step lfa s (.keysRetrieved k true) = some s')
    (found : s'.communities.get? caller.teamId = some m) (own : team.id = caller.teamId)
    (reads : s.ReadsStored (.retrievingKeys caller blob))
    (along : Along (writtenStep lfa)
      (fun w a => OnlyChain m.sigChain w a ∧ NewestAlone m.sigChain w a) ⟨s', []⟩ as) :
    Throughout (writtenStep lfa) (StoresNewest lfa m.sigChain) ⟨s', []⟩ as := by
  have wired : Wired s := run_keeps (fun _ _ _ wired taken => wired_step wired taken)
    (.start stored) ran
  obtain ⟨row, quiet⟩ := reads
  have isLoad : s' = (s.load caller.teamId team).1.setTask k
      (.resolved caller (some (s.load caller.teamId team).2)) := by
    dsimp only [step] at loaded
    rw [waiting] at loaded
    dsimp only [processCommunity] at loaded
    rw [isTeam] at loaded
    exact (Option.some.inj loaded).symm
  have isChain : m = (s.load caller.teamId team).2 := by
    rw [isLoad] at found
    exact Option.some.inj (found.symm.trans (JsMap.get?_set_self _ _ _))
  subst isChain
  refine throughout_of_along (I := fun w => Wired w.state ∧
    Follows lfa (s.load caller.teamId team).2.sigChain w) ?_
    (fun _ inv => inv.2.storesNewest) ⟨wired_step wired loaded, ?_⟩ along
  · rintro w a w' ⟨wired, follows⟩ ⟨only, alone⟩ taken
    exact ⟨wired_writtenStep wired taken, follows_step wired follows only alone taken⟩
  · rw [isLoad]
    exact follows_load k _ own isTeam row quiet

/-! ## Two overlapping writes -/

/-- A member's sign-in reads the row of the community. -/
def readRow : List (Action Team) :=
  [.get 0 (.signIn "team" "alice" "socket") false, .communityRead 0 true]

/-- The member is connected and reports two updates; their writes complete in the order given. -/
def twoUpdates (first second : Nat) : List (Action Team) :=
  [.resume 0 quietEnv, .connected (firstConnection true) "alice",
    .updated (firstConnection true) {"invite"}, .updated (firstConnection true) {"promote"},
    .writeCompleted first true, .writeCompleted second true]

theorem newest_stored_inOrder : ∃ s m,
    Throughout (writtenStep (.plain fun _ => ["alice"]))
      (StoresNewest (.plain fun _ => ["alice"]) (ManagedCommunity.sigChain m)) ⟨s, []⟩
      (twoUpdates 0 0) := by
  refine ⟨_, _, newest_stored (.plain fun _ => ["alice"])
    (fun _ => some { id := "team", links := {"root"} }) readRow (twoUpdates 0 0) 0 rfl rfl rfl rfl
    rfl rfl ⟨rfl, ?_⟩ ?_⟩
  · exact fun _ mem => absurd mem List.not_mem_nil
  · decide

/-- The second write completes first, and the first one overwrites it. -/
theorem older_snapshot_lands_last : ∃ w,
    run (writtenStep (.plain fun _ => ["alice"]))
      ⟨.start fun _ => some { id := "team", links := {"root"} }, []⟩
      (readRow ++ [.keysRetrieved 0 true] ++ twoUpdates 1 0) = some w ∧
    ¬ StoresNewest (.plain fun _ => ["alice"]) (firstConnection true).sigChain w := by
  refine ⟨_, rfl, ?_⟩
  intro newest
  obtain ⟨⟨blob, stored, same⟩, _⟩ := newest fun _ mem => absurd mem List.not_mem_nil
  cases stored
  rcases same with same | same
  · exact absurd same (by decide)
  · exact absurd same (by decide)

end QuietStorage.Communities
