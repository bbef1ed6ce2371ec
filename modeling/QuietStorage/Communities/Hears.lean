import QuietStorage.Communities.LetIn
import QuietStorage.Communities.Rooms

/-!
# Communities.Hears — who can hear the fan-out of a team

A stored entry is fanned out to the room of its team. `Communities.Rooms` shows that a member of a room
need not be authenticated any more. What the rooms do keep, in every run, is strangers outside
(`only_the_let_in_hear`): a socket is in the room of a team because a member of the team completed the
LFA handshake over it, or because its own `create` inserted the row of the team, and it has not
disconnected. As a row is inserted once, at most one socket per team is there by creation.

`EnteredSince` says so of a member and the actions that were taken so far. What it says of the manager
is about the manager's part of the run, `acts`, so the invariants of `Communities.LetIn` carry over.
-/

set_option autoImplicit false

namespace QuietStorage.Communities

open Lib Sync State

variable {Blob : Type}

def RoomAction.acts : RoomAction Blob → List (Action Blob)
  | .act a => [a]
  | _ => []

/-- The manager's part of a run. -/
def acts (as : List (RoomAction Blob)) : List (Action Blob) := as.flatMap RoomAction.acts

section
variable (lfa : Lfa Blob) (stored : TeamId → Option Blob)

/-- In the run the `create` of the socket inserted the row of the team. -/
def AddedBy (done : List (Action Blob)) (T : TeamId) (socketId : SocketId) : Prop :=
  ∃ before k later state request team, done = before ++ .communityAdded k true :: later ∧
    run (step lfa) (.start stored) before = some state ∧
    state.tasks k = .adding request team ∧ request.teamId = T ∧ request.socketId = socketId ∧
    state.stored T = none

/-- The ways into the room of a team, after the actions of `before`. -/
inductive Enters (before : List (RoomAction Blob)) (T : TeamId) (socketId : SocketId) :
    RoomAction Blob → Prop
  /-- A member of the chain completes the handshake of a connection of the socket. -/
  | handshake {c : AuthConnection} {p : UserId} {s : State Blob}
    (ran : run (step lfa) (.start stored) (acts before) = some s) (started : c ∈ s.started)
    (member : p ∈ lfa.members (s.team c.sigChain))
    (held : Held lfa stored (acts before) c.communityId c.sigChain)
    (isTeam : c.sigChain.teamId = T) (isSocket : c.socketId = socketId) :
    Enters before T socketId (.act (.connected c p))
  /-- The socket has created the team, and its handler goes on. -/
  | creator {i : Nat} {r : Rooms Blob}
    (ran : run (roomStep lfa) { state := .start stored } before = some r)
    (waits : r.joins[i]? = some (T, socketId)) (added : AddedBy lfa stored (acts before) T socketId) :
    Enters before T socketId (.joinCreated i)

/-- In the run the socket entered the room, and the server was not restarted after it. -/
def EnteredSince (done : List (RoomAction Blob)) (T : TeamId) (socketId : SocketId) : Prop :=
  ∃ before a later, done = before ++ a :: later ∧ Enters lfa stored before T socketId a ∧
    .act .restart ∉ later

end

section
variable {lfa : Lfa Blob} {stored : TeamId → Option Blob}

/-! ## The manager's part of a run -/

theorem acts_append (done : List (RoomAction Blob)) (a : RoomAction Blob) :
    acts (done ++ [a]) = acts done ++ acts [a] :=
  List.flatMap_append

/-- A step of the rooms is a step of the manager, or none. -/
theorem run_acts_step {r r' : Rooms Blob} {a : RoomAction Blob}
    (stepped : roomStep lfa r a = some r') : run (step lfa) r.state a.acts = some r'.state := by
  cases a with
  | act a =>
    obtain ⟨s', taken, rfl⟩ := Option.map_eq_some_iff.mp stepped
    rw [Rooms.after_state]
    exact run_cons_eq_some.mpr ⟨s', taken, rfl⟩
  | joinCreated i =>
    dsimp only [roomStep] at stepped
    split at stepped
    · cases stepped
    · cases stepped
      rw [Rooms.join_state]
      rfl
  | leave socketId =>
    cases stepped
    rfl

theorem run_acts {as : List (RoomAction Blob)} {r : Rooms Blob}
    (ran : run (roomStep lfa) { state := .start stored } as = some r) :
    run (step lfa) (.start stored) (acts as) = some r.state := by
  exact run_projects Rooms.state RoomAction.acts (fun r a r' stepped => run_acts_step stepped) ran

/-! ## The row of a team -/

/-- A row that is there stays. -/
theorem row_step {s s' : State Blob} {a : Action Blob} (wired : s.Wired)
    (taken : step lfa s a = some s') {T : TeamId} (row : s.stored T ≠ none) :
    s'.stored T ≠ none := by
  have replaced (T' : TeamId) (blob : Blob) :
      Function.update s.stored T' (some blob) T ≠ none := by
    rw [Function.update_apply]
    split
    · exact Option.some_ne_none blob
    · exact row
  cases step_eq_some taken with
  | waits => exact row
  | loads => exact row
  | @receives k env payload socketId found _ =>
    obtain ⟨events, received, _⟩ := receive_eq (s.setTask k .idle) payload socketId found
    rw [received]
    exact row
  | @signsIn k env T' userId socketId m _ =>
    rw [(startAuthSyncConnection_calm (s.setTask k .idle) userId T' socketId env).stored]
    exact row
  | adds => exact replaced _ _
  | @creates k env request team _ =>
    have calm := startAuthSyncConnection_calm ((s.setTask k .idle).putCreated request.teamId team)
      request.userId request.teamId request.socketId env
    show ((State.startAuthSyncConnection _ _ _ _ env).getD _).stored T ≠ none
    rw [calm.stored]
    exact row
  | connected => exact row
  | disconnected =>
    rw [(s.lfaDisconnected_shrinks _ _).stored]
    exact row
  | updated =>
    rw [update_eq]
    exact row
  | socketDisconnected =>
    rw [(s.stop_shrinks _ _ _).stored]
    exact row
  | @writeCompleted i succeeds T' blob _ =>
    show (if _ then _ else _ : TeamId → Option Blob) T ≠ none
    split
    · exact replaced T' blob
    · exact row
  | sweep =>
    rw [(sweep_shrinks wired.keyed _).stored]
    exact row
  | restart => exact row

/-- `create` holds that it has inserted the row exactly if it did. -/
theorem added_step {s s' : State Blob} {a : Action Blob} (wired : s.Wired)
    (taken : step lfa s a = some s') {k : TaskId} {request : CreateRequest Blob} {team : Team}
    (isTask : s'.tasks k = .added request team true) :
    s.tasks k = .added request team true ∨
      a = .communityAdded k true ∧ s.tasks k = .adding request team ∧
        s.stored request.teamId = none := by
  have of_setTask {s₁ : State Blob} {k' : TaskId} {task : Task Blob}
      (isTask : (s₁.setTask k' task).tasks k = .added request team true) :
      s₁.tasks k = .added request team true ∨ k = k' ∧ task = .added request team true := by
    simp only [setTask, Function.update_apply] at isTask
    split at isTask
    · next same => exact .inr ⟨same, isTask⟩
    · exact .inl isTask
  have of_tasks {s₁ : State Blob} (moved : s'.tasks k = s₁.tasks k ∨ s'.tasks k = .idle) :
      s₁.tasks k = .added request team true := by
    rcases moved with same | idle
    · exact same.symm.trans isTask
    · cases idle.symm.trans isTask
  have of_idle {k' : TaskId} (isTask : (s.setTask k' .idle).tasks k = .added request team true) :
      s.tasks k = .added request team true := by
    rcases of_setTask isTask with before | ⟨-, idle⟩
    · exact before
    · cases idle
  cases step_eq_some taken with
  | waits _ _ unstored =>
    rcases of_setTask isTask with before | ⟨-, new⟩
    · exact .inl before
    · exact absurd new (unstored request team)
  | loads =>
    rcases of_setTask isTask with before | ⟨-, new⟩
    · exact .inl before
    · cases new
  | @receives k' env payload socketId found _ =>
    obtain ⟨events, received, _⟩ := receive_eq (s.setTask k' .idle) payload socketId found
    rw [received] at isTask
    exact .inl (of_idle isTask)
  | signsIn => exact .inl (of_idle (of_tasks (startAuthSyncConnection_tasks _ _ _ _ _ k)))
  | adds waiting absent =>
    rcases of_setTask isTask with before | ⟨same, new⟩
    · exact .inl before
    · cases same
      cases new
      exact .inr ⟨rfl, waiting, absent⟩
  | creates => exact .inl (of_idle (of_tasks (startAuthSyncConnection_tasks _ _ _ _ _ k)))
  | connected => exact .inl isTask
  | disconnected => exact .inl (of_tasks ((s.lfaDisconnected_shrinks _ _).tasks k))
  | updated =>
    rw [update_eq] at isTask
    exact .inl isTask
  | socketDisconnected => exact .inl (of_tasks ((s.stop_shrinks _ _ _).tasks k))
  | writeCompleted => exact .inl isTask
  | sweep => exact .inl (of_tasks ((sweep_shrinks wired.keyed _).tasks k))
  | restart => cases isTask

theorem AddedBy.mono {done : List (Action Blob)} {T : TeamId} {socketId : SocketId}
    (added : AddedBy lfa stored done T socketId) (more : List (Action Blob)) :
    AddedBy lfa stored (done ++ more) T socketId := by
  obtain ⟨before, k, later, state, request, team, rfl, rest⟩ := added
  refine ⟨before, k, later ++ more, state, request, team, ?_, rest⟩
  rw [List.append_assoc, List.cons_append]

/-- The invariant of the manager: a `create` that goes on has inserted the row, and a row that a
`create` has inserted is there. -/
structure AddedInv (lfa : Lfa Blob) (stored : TeamId → Option Blob) (done : List (Action Blob))
    (s : State Blob) : Prop where
  wired : s.Wired
  added : ∀ k request team, s.tasks k = .added request team true →
    AddedBy lfa stored done request.teamId request.socketId
  row : ∀ T socketId, AddedBy lfa stored done T socketId → s.stored T ≠ none
  once : ∀ T socketId socketId', AddedBy lfa stored done T socketId →
    AddedBy lfa stored done T socketId' → socketId = socketId'

/-- What a longer run has inserted was inserted before, or it is inserted by the last action. -/
theorem addedBy_snoc {done : List (Action Blob)} {s : State Blob} {a : Action Blob}
    (ran : run (step lfa) (.start stored) done = some s) {T : TeamId} {socketId : SocketId}
    (added : AddedBy lfa stored (done ++ [a]) T socketId) :
    AddedBy lfa stored done T socketId ∨
      ∃ k request team, a = .communityAdded k true ∧ s.tasks k = .adding request team ∧
        request.teamId = T ∧ request.socketId = socketId ∧ s.stored T = none := by
  obtain ⟨before, k, later, state, request, team, split_, before_, rest⟩ := added
  rcases List.eq_nil_or_concat later with rfl | ⟨later, last, rfl⟩
  · obtain ⟨rfl, last⟩ := List.append_inj' split_ rfl
    cases last
    cases ran.symm.trans before_
    exact .inr ⟨k, request, team, rfl, rest⟩
  · refine .inl ⟨before, k, later, state, request, team, ?_, before_, rest⟩
    rw [List.concat_eq_append, ← List.cons_append, ← List.append_assoc] at split_
    exact (List.append_inj' split_ rfl).1

/-- **The step lemma of the manager.** -/
theorem addedInv_step {done : List (Action Blob)} {s s' : State Blob} {a : Action Blob}
    (ran : run (step lfa) (.start stored) done = some s) (inv : AddedInv lfa stored done s)
    (taken : step lfa s a = some s') : AddedInv lfa stored (done ++ [a]) s' := by
  have inserted {k : TaskId} {request : CreateRequest Blob} {team : Team}
      (waiting : s.tasks k = .adding request team) (absent : s.stored request.teamId = none)
      (isAction : a = .communityAdded k true) : s'.stored request.teamId ≠ none := by
    subst isAction
    simp only [step, waiting, State.addCommunity, absent, Option.some.injEq] at taken
    rw [← taken]
    show Function.update s.stored request.teamId (some request.sigChain) request.teamId ≠ none
    rw [Function.update_self]
    exact Option.some_ne_none _
  refine ⟨wired_step inv.wired taken, ?_, ?_, ?_⟩
  · intro k request team isTask
    rcases added_step inv.wired taken isTask with before | ⟨rfl, waiting, absent⟩
    · exact (inv.added k request team before).mono [a]
    · exact ⟨done, k, [], s, request, team, rfl, ran, waiting, rfl, rfl, absent⟩
  · intro T socketId added
    rcases addedBy_snoc ran added with before | ⟨k, request, team, isAction, waiting, rfl, -, absent⟩
    · exact row_step inv.wired taken (inv.row T socketId before)
    · exact inserted waiting absent isAction
  · intro T socketId socketId' added added'
    rcases addedBy_snoc ran added with before | ⟨k, request, team, isAction, waiting, rfl, rfl, absent⟩
    · rcases addedBy_snoc ran added' with before' | ⟨-, -, -, -, -, -, -, absent'⟩
      · exact inv.once T socketId socketId' before before'
      · exact absurd absent' (inv.row T socketId before)
    · rcases addedBy_snoc ran added' with
        before' | ⟨k', request', team', isAction', waiting', -, rfl, -⟩
      · exact absurd absent (inv.row _ socketId' before')
      · cases isAction.symm.trans isAction'
        cases waiting.symm.trans waiting'
        rfl

theorem addedInv_run {as : List (Action Blob)} {s : State Blob}
    (ran : run (step lfa) (.start stored) as = some s) : AddedInv lfa stored as s := by
  have none_ (T : TeamId) (socketId : SocketId) : ¬ AddedBy lfa stored [] T socketId := by
    rintro ⟨before, k, later, state, request, team, split_, -⟩
    cases before <;> cases split_
  refine run_remembers (P := AddedInv lfa stored) ?_ ?_ ran
  · refine ⟨.start stored, fun _ _ _ isTask => ?_, ?_, ?_⟩
    · cases isTask
    · exact fun T socketId added => absurd added (none_ T socketId)
    · exact fun T socketId _ added => absurd added (none_ T socketId)
  · exact fun done s a s' before inv taken => addedInv_step before inv taken

/-! ## The rooms -/

theorem EnteredSince.snoc {done : List (RoomAction Blob)} {T : TeamId} {socketId : SocketId}
    (entered : EnteredSince lfa stored done T socketId) {a : RoomAction Blob}
    (goesOn : a ≠ .act .restart) : EnteredSince lfa stored (done ++ [a]) T socketId := by
  obtain ⟨before, way, later, rfl, enters, stays⟩ := entered
  refine ⟨before, way, later ++ [a], ?_, enters, ?_⟩
  · rw [List.append_assoc, List.cons_append]
  · intro mem
    rcases List.mem_append.mp mem with mem | mem
    · exact stays mem
    · exact goesOn (List.mem_singleton.mp mem).symm

theorem EnteredSince.last {done : List (RoomAction Blob)} {T : TeamId} {socketId : SocketId}
    {a : RoomAction Blob} (enters : Enters lfa stored done T socketId a) :
    EnteredSince lfa stored (done ++ [a]) T socketId :=
  ⟨done, a, [], rfl, enters, List.not_mem_nil⟩

/-- The invariant of the rooms: a handler that goes on after `create` has created its team, a socket that
has left is gone, and who is in a room is not gone and has entered it. -/
structure HearsInv (lfa : Lfa Blob) (stored : TeamId → Option Blob) (done : List (RoomAction Blob))
    (r : Rooms Blob) : Prop where
  joins : ∀ T socketId, (T, socketId) ∈ r.joins → AddedBy lfa stored (acts done) T socketId
  gone : ∀ socketId, .leave socketId ∈ done → socketId ∈ r.gone
  members : ∀ T socketId, (T, socketId) ∈ r.members →
    socketId ∉ r.gone ∧ EnteredSince lfa stored done T socketId

/-- The handlers that go on after an action of the manager, and the sockets that are gone. -/
theorem Rooms.after_joins (r : Rooms Blob) (a : Action Blob) (s' : State Blob) {T : TeamId}
    {socketId : SocketId} (mem : (T, socketId) ∈ (r.after a s').joins) :
    (T, socketId) ∈ r.joins ∨ ∃ k request team, r.state.tasks k = .added request team true ∧
      request.teamId = T ∧ request.socketId = socketId := by
  cases a with
  | connected c peer =>
    unfold after join at mem
    dsimp only at mem
    split at mem
    · exact .inl mem
    · exact .inl mem
  | created k env =>
    unfold after at mem
    dsimp only at mem
    split at mem
    · next request team waiting =>
      rcases List.mem_append.mp mem with mem | mem
      · exact .inl mem
      · cases List.mem_singleton.mp mem
        exact .inr ⟨k, request, team, waiting, rfl, rfl⟩
    · exact .inl mem
  | restart => cases mem
  | _ => exact .inl mem

@[simp] theorem Rooms.join_gone (r : Rooms Blob) (T : TeamId) (socketId : SocketId) :
    (r.join T socketId).gone = r.gone := by
  unfold join
  split <;> rfl

@[simp] theorem Rooms.join_joins (r : Rooms Blob) (T : TeamId) (socketId : SocketId) :
    (r.join T socketId).joins = r.joins := by
  unfold join
  split <;> rfl

@[simp] theorem Rooms.after_gone (r : Rooms Blob) (a : Action Blob) (s' : State Blob) :
    (r.after a s').gone = r.gone := by
  cases a with
  | connected c peer => exact join_gone _ _ _
  | created k env =>
    unfold after
    dsimp only
    split <;> rfl
  | _ => rfl

/-- An action of the manager. -/
theorem hearsInv_act {done : List (RoomAction Blob)} {r : Rooms Blob} {a : Action Blob}
    {s' : State Blob} (ran : run (step lfa) (.start stored) (acts done) = some r.state)
    (inv : HearsInv lfa stored done r) (taken : step lfa r.state a = some s') :
    HearsInv lfa stored (done ++ [.act a]) (r.after a s') := by
  refine ⟨?_, ?_, ?_⟩
  · intro T socketId mem
    rw [acts_append]
    rcases r.after_joins a s' mem with before | ⟨k, request, team, waiting, rfl, rfl⟩
    · exact (inv.joins T socketId before).mono _
    · exact ((addedInv_run ran).added k request team waiting).mono _
  · intro socketId left
    rw [Rooms.after_gone]
    rcases List.mem_append.mp left with left | left
    · exact inv.gone socketId left
    · cases List.mem_singleton.mp left
  · intro T socketId mem
    rw [Rooms.after_gone]
    by_cases connects : ∃ c peer, a = .connected c peer
    · obtain ⟨c, p, rfl⟩ := connects
      rcases (Rooms.members_join { r with state := s' } c.sigChain.teamId T c.socketId socketId).mp mem
        with before | ⟨here, rfl, rfl⟩
      · obtain ⟨present, entered⟩ := inv.members T socketId before
        exact ⟨present, entered.snoc fun same => by cases same⟩
      · have enabled : c ∈ r.state.started ∧ p ∈ lfa.members (r.state.team c.sigChain) := by
          dsimp only [step] at taken
          split at taken
          · next enabled => exact enabled
          · cases taken
        have held := (letInInv_run ran).started c enabled.1
        exact ⟨here, .last (.handshake ran enabled.1 enabled.2 held rfl rfl)⟩
    · by_cases isRestart : a = .restart
      · subst isRestart
        exact absurd mem List.not_mem_nil
      · rw [Rooms.after_members r s' (fun c p same => connects ⟨c, p, same⟩) isRestart] at mem
        obtain ⟨present, entered⟩ := inv.members T socketId mem
        refine ⟨present, entered.snoc fun same => ?_⟩
        cases same
        exact isRestart rfl

/-- **The step lemma.** -/
theorem hearsInv_step {done : List (RoomAction Blob)} {r r' : Rooms Blob} {a : RoomAction Blob}
    (ran : run (roomStep lfa) { state := .start stored } done = some r)
    (inv : HearsInv lfa stored done r) (stepped : roomStep lfa r a = some r') :
    HearsInv lfa stored (done ++ [a]) r' := by
  cases a with
  | act a =>
    obtain ⟨s', taken, rfl⟩ := Option.map_eq_some_iff.mp stepped
    exact hearsInv_act (run_acts ran) inv taken
  | joinCreated i =>
    dsimp only [roomStep] at stepped
    split at stepped
    · cases stepped
    · next T socketId isJoin =>
      cases stepped
      have added := inv.joins T socketId (List.mem_of_getElem? isJoin)
      refine ⟨?_, ?_, ?_⟩
      · intro T' socketId' mem
        rw [Rooms.join_joins] at mem
        rw [acts_append]
        exact (inv.joins T' socketId' (List.mem_of_mem_eraseIdx mem)).mono _
      · intro socketId' left
        rw [Rooms.join_gone]
        rcases List.mem_append.mp left with left | left
        · exact inv.gone socketId' left
        · cases List.mem_singleton.mp left
      · intro T' socketId' mem
        rw [Rooms.join_gone]
        rcases (Rooms.members_join _ T T' socketId socketId').mp mem with before | ⟨here, rfl, rfl⟩
        · obtain ⟨present, entered⟩ := inv.members T' socketId' before
          exact ⟨present, entered.snoc fun same => by cases same⟩
        · exact ⟨here, .last (.creator ran isJoin added)⟩
  | leave socketId =>
    cases stepped
    refine ⟨?_, ?_, ?_⟩
    · intro T socketId' mem
      rw [acts_append]
      exact (inv.joins T socketId' mem).mono _
    · intro socketId' left
      rcases List.mem_append.mp left with left | left
      · exact List.mem_cons_of_mem _ (inv.gone socketId' left)
      · cases List.mem_singleton.mp left
        exact List.mem_cons_self
    · intro T socketId' mem
      obtain ⟨before, stays⟩ := List.mem_filter.mp mem
      obtain ⟨present, entered⟩ := inv.members T socketId' before
      refine ⟨?_, entered.snoc fun same => by cases same⟩
      rw [List.mem_cons, not_or]
      exact ⟨of_decide_eq_true stays, present⟩

theorem hearsInv_run {as : List (RoomAction Blob)} {r : Rooms Blob}
    (ran : run (roomStep lfa) { state := .start stored } as = some r) : HearsInv lfa stored as r := by
  refine run_remembers (P := HearsInv lfa stored) ?_ ?_ ran
  · exact ⟨fun _ _ mem => absurd mem List.not_mem_nil, fun _ left => absurd left List.not_mem_nil,
      fun _ _ mem => absurd mem List.not_mem_nil⟩
  · exact fun done r a r' before inv stepped => hearsInv_step before inv stepped

end

/-- **Only who was let in can hear.** In every run, a socket that is in the room of a team has not
disconnected, and it entered the room since the last restart: over a connection whose handshake a member
of the chain completed, the chain being one that was held for the connection's community, or as the
socket whose `create` inserted the row of the team. No second socket did that. -/
theorem only_the_let_in_hear (lfa : Lfa Blob) (stored : TeamId → Option Blob)
    (as : List (RoomAction Blob)) (r : Rooms Blob)
    (ran : run (roomStep lfa) { state := .start stored } as = some r) :
    (∀ T socketId, (T, socketId) ∈ r.members →
      .leave socketId ∉ as ∧ EnteredSince lfa stored as T socketId) ∧
    ∀ T socketId socketId', AddedBy lfa stored (acts as) T socketId →
      AddedBy lfa stored (acts as) T socketId' → socketId = socketId' := by
  have inv := hearsInv_run ran
  refine ⟨fun T socketId mem => ?_, (addedInv_run (run_acts ran)).once⟩
  obtain ⟨present, entered⟩ := inv.members T socketId mem
  exact ⟨fun left => present (inv.gone socketId left), entered⟩

/-- The creator of a community hears it, and entered as its creator. -/
theorem only_the_let_in_hear_creator :
    ∃ r, run (roomStep (.plain fun _ => ["alice"])) { state := .start fun _ => none }
        createdRoom = some r ∧ ("team", "socket") ∈ r.members ∧
      EnteredSince (.plain fun _ => ["alice"]) (fun _ => none) createdRoom "team" "socket" := by
  refine ⟨_, rfl, List.mem_cons_self, ?_⟩
  exact ((only_the_let_in_hear (.plain fun _ => ["alice"]) (fun _ => none) createdRoom _ rfl).1
    "team" "socket" List.mem_cons_self).2

end QuietStorage.Communities
