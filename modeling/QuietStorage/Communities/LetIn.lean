import QuietStorage.Communities.Identity

/-!
# Communities.LetIn — nobody but members

`Communities.Identity` shows that an entry can be written under a name that its writer did not
authenticate as. What the checks do keep, in every run, is outsiders: whoever passes
`_validateSyncPermission` for a team, to pull its log or to write to it, does so on a socket over which
a member of the team completed the LFA handshake, and whose connection has been joined ever since
(`only_members_pass`): no disconnect of LFA or of the socket, no replacement by another sign-in and no
restart came between.

The members are those of the chain that the server had in memory for the team when the socket signed
in, as it was at the handshake. `LetIn` says so of a connection and the actions that were taken so far;
it grows with the run, so each step only has to account for a connection that becomes joined.
-/

set_option autoImplicit false

namespace QuietStorage.Communities

open Lib Sync

variable {Blob : Type}

section
variable (lfa : Lfa Blob) (stored : TeamId → Option Blob)

/-- In the run there was a moment at which the chain was in memory for the team. -/
def Held (done : List (Action Blob)) (T : TeamId) (sigChain : SigChain) : Prop :=
  ∃ earlier m state, earlier <+: done ∧ run (step lfa) (.start stored) earlier = some state ∧
    state.communities.get? T = some m ∧ m.sigChain = sigChain

/-- In the run `p` completed the handshake of the connection, as a member of the chain that was held for
its community, and the connection has been joined since. -/
structure LetIn (done : List (Action Blob)) (c : AuthConnection) (p : UserId) : Prop where
  held : Held lfa stored done c.communityId c.sigChain
  handshake : Since (step lfa) (.start stored) done (.connected c p)
    (fun _ s => c ∈ s.started ∧ p ∈ lfa.members (s.team c.sigChain)) (fun s => s.status c = .JOINED)

/-- In the run the message was handed to storage: it passed with the connection, whose peer was `p` and
which had been let in by then. -/
def WrittenBy (done : List (Action Blob)) (payload : LogEntrySyncPayload) (socketId : SocketId)
    (c : AuthConnection) (p : UserId) : Prop :=
  ∃ before a later state, done = before ++ a :: later ∧
    run (step lfa) (.start stored) before = some state ∧ Passes state a payload socketId c ∧
    state.peer c = some p ∧ LetIn lfa stored before c p

end

section
variable {lfa : Lfa Blob} {stored : TeamId → Option Blob} {done : List (Action Blob)}
  {s s' : State Blob} {a : Action Blob}

theorem Held.mono {T : TeamId} {sigChain : SigChain} (held : Held lfa stored done T sigChain)
    (more : List (Action Blob)) : Held lfa stored (done ++ more) T sigChain := by
  obtain ⟨earlier, m, state, isPrefix, rest⟩ := held
  exact ⟨earlier, m, state, isPrefix.trans (List.prefix_append done more), rest⟩

/-- What was let in stays so while it is joined. -/
theorem LetIn.mono {c : AuthConnection} {p : UserId} (letIn : LetIn lfa stored done c p)
    (ran : run (step lfa) (.start stored) done = some s) (taken : step lfa s a = some s')
    (joined : s'.status c = .JOINED) : LetIn lfa stored (done ++ [a]) c p :=
  ⟨letIn.held.mono [a], letIn.handshake.snoc ran taken joined⟩

theorem WrittenBy.mono {payload : LogEntrySyncPayload} {socketId : SocketId} {c : AuthConnection}
    {p : UserId} (written : WrittenBy lfa stored done payload socketId c p) (a : Action Blob) :
    WrittenBy lfa stored (done ++ [a]) payload socketId c p := by
  obtain ⟨before, way, later, state, rfl, rest⟩ := written
  refine ⟨before, way, later ++ [a], state, ?_, rest⟩
  rw [List.append_assoc, List.cons_append]

open State

/-! ## Which chain a connection is on -/

/-- A connection that is started was started before, or it is on the chain that is in memory for its
community, before the step or after it. -/
theorem started_step (wired : Wired s) (taken : step lfa s a = some s') {c : AuthConnection}
    (mem : c ∈ s'.started) :
    c ∈ s.started ∨ ∃ state m, (state = s ∨ state = s') ∧
      state.communities.get? c.communityId = some m ∧ m.sigChain = c.sigChain := by
  cases step_eq_some taken with
  | waits => exact .inl mem
  | loads => exact .inl mem
  | @receives k env payload socketId found _ =>
    obtain ⟨events, received, _⟩ := receive_eq (s.setTask k .idle) payload socketId found
    rw [received] at mem
    exact .inl mem
  | @signsIn k env T userId socketId m _ =>
    rcases startAuthSyncConnection_getD (s.setTask k .idle) userId T socketId env with
      shrinks | ⟨m, ref, between, found, -, before, after⟩
    · exact .inl (shrinks.started mem)
    · rcases List.mem_append.mp (after.started mem) with old | new
      · exact .inl (before.started old)
      · rw [List.mem_singleton.mp new]
        exact .inr ⟨s, m, .inl rfl, found, rfl⟩
  | adds => exact .inl mem
  | @creates k env request team _ =>
    let created := (s.setTask k .idle).putCreated request.teamId team
    obtain ⟨m, found, noMap⟩ : ∃ m, created.communities.get? request.teamId = some m ∧
        m.authConnections = none := ⟨_, JsMap.get?_set_self _ _ _, rfl⟩
    have starts := startAuthSyncConnection_of_no_map found noMap request.userId request.socketId env
    have isState : (s.setTask k .idle).finishCreate request team env =
        (created.connectionMap request.teamId m).1.connect request.userId request.teamId
          request.socketId m (created.connectionMap request.teamId m).2 env := by
      show (created.startAuthSyncConnection _ _ _ env).getD created = _
      rw [starts]
      rfl
    rw [isState] at mem ⊢
    rcases List.mem_append.mp ((connect_shrinks _ _ _ _ _ _ _).started mem) with old | new
    · exact .inl ((created.connectionMap_shrinks request.teamId m).started old)
    · rw [List.mem_singleton.mp new]
      obtain ⟨-, -, m', found', same⟩ := connect_keeps (created.connectionMap request.teamId m).1
        request.userId request.teamId request.socketId m (created.connectionMap request.teamId m).2 env
      exact .inr ⟨_, m', .inr rfl, found', same⟩
  | connected => exact .inl mem
  | disconnected => exact .inl ((s.lfaDisconnected_shrinks _ _).started mem)
  | updated =>
    rw [update_eq] at mem
    exact .inl mem
  | socketDisconnected => exact .inl ((s.stop_shrinks _ _ _).started mem)
  | writeCompleted => exact .inl mem
  | sweep => exact .inl ((sweep_shrinks wired.keyed _).started mem)
  | restart => cases mem

/-! ## Who is joined -/

/-- A connection that is joined was joined before and has the same peer, or the step is its handshake. -/
theorem joined_step (wired : Wired s) (taken : step lfa s a = some s') {c : AuthConnection}
    (joined : s'.status c = .JOINED) :
    (s.status c = .JOINED ∧ s'.peer c = s.peer c) ∨
      ∃ p, a = .connected c p ∧ s'.peer c = some p ∧ c ∈ s.started ∧
        p ∈ lfa.members (s.team c.sigChain) := by
  have calmly (calm : Calm s s') : (s.status c = .JOINED ∧ s'.peer c = s.peer c) ∨
      ∃ p, a = .connected c p ∧ s'.peer c = some p ∧ c ∈ s.started ∧
        p ∈ lfa.members (s.team c.sigChain) := by
    obtain ⟨before, peer⟩ := calm.joined c joined
    exact .inl ⟨before, peer⟩
  cases step_eq_some taken with
  | waits => exact .inl ⟨joined, rfl⟩
  | loads => exact .inl ⟨joined, rfl⟩
  | @receives k env payload socketId found _ =>
    obtain ⟨events, received, _⟩ := receive_eq (s.setTask k .idle) payload socketId found
    rw [received] at joined ⊢
    exact .inl ⟨joined, rfl⟩
  | @signsIn k env T userId socketId _ _ =>
    refine calmly ((Calm.of_shrinks (s.idle_shrinks k)).trans ?_)
    exact startAuthSyncConnection_calm _ userId T socketId env
  | adds => exact .inl ⟨joined, rfl⟩
  | @creates k env request team _ =>
    have calm := startAuthSyncConnection_calm
      ((s.setTask k .idle).putCreated request.teamId team) request.userId request.teamId
      request.socketId env
    obtain ⟨before, peer⟩ := calm.joined c joined
    exact .inl ⟨before, peer⟩
  | @connected c' p started member =>
    by_cases same : c = c'
    · subst same
      exact .inr ⟨p, rfl, Function.update_self .., started, member⟩
    · refine .inl ⟨?_, Function.update_of_ne same _ _⟩
      have status : ((s.setPeer c' p).setStatus c' .JOINED).status c = s.status c :=
        Function.update_of_ne same _ _
      exact status ▸ joined
  | disconnected => exact calmly (.of_shrinks (s.lfaDisconnected_shrinks _ _))
  | updated =>
    rw [update_eq] at joined ⊢
    exact .inl ⟨joined, rfl⟩
  | socketDisconnected => exact calmly (.of_shrinks (s.stop_shrinks _ _ _))
  | writeCompleted => exact .inl ⟨joined, rfl⟩
  | sweep => exact calmly (.of_shrinks (sweep_shrinks wired.keyed _))
  | restart => exact calmly (.of_shrinks s.restart_shrinks)

/-- What the check of a message has found: the connection that is registered for its user, which is joined
and was made for its socket. -/
theorem joined_of_passes (wired : Wired s) {k : TaskId} {caller : Caller} {m : ManagedCommunity}
    {userId : UserId} {socketId : SocketId} (waiting : s.tasks k = .resolved caller (some m))
    (passes : validateSyncPermission userId caller.teamId (some (s.sessions m)) socketId = .ok ()) :
    ∃ c, s.connectionOf m userId = some c ∧ s.status c = .JOINED ∧ c.communityId = caller.teamId ∧
      c.userId = userId ∧ c.socketId = socketId := by
  obtain ⟨sessions, isSessions, session⟩ := (validateSyncPermission_ok caller.teamId).mp passes
  cases isSessions
  obtain ⟨c, registered, isSession⟩ := Option.map_eq_some_iff.mp session
  injection isSession with socket joined
  obtain ⟨ref, isRef, inMap⟩ := Option.bind_eq_some_iff.mp registered
  obtain ⟨user, community, -⟩ := wired.mapped ref userId c inMap
  exact ⟨c, registered, joined, community.trans (wired.resolved k caller m ref waiting isRef), user,
    socket⟩

/-- The invariant, with the actions that were taken: a connection that was started is on a chain that was
held for its community, one that is joined was let in as its peer, and every entry was written by one that
had been let in. -/
structure LetInInv (lfa : Lfa Blob) (stored : TeamId → Option Blob) (done : List (Action Blob))
    (s : State Blob) : Prop where
  wired : Wired s
  started : ∀ c ∈ s.started, Held lfa stored done c.communityId c.sigChain
  joined : ∀ c, s.status c = .JOINED → ∃ p, s.peer c = some p ∧ LetIn lfa stored done c p
  written : ∀ payload socketId c status peer, .written payload socketId c status peer ∈ s.trace →
    c.communityId = payload.teamId ∧ c.socketId = socketId ∧
      ∃ p, peer = some p ∧ WrittenBy lfa stored done payload socketId c p

/-- **The step lemma.** -/
theorem letInInv_step (ran : run (step lfa) (.start stored) done = some s)
    (inv : LetInInv lfa stored done s) (taken : step lfa s a = some s') :
    LetInInv lfa stored (done ++ [a]) s' := by
  have ranOn := run_snoc ran taken
  refine ⟨wired_step inv.wired taken, fun c mem => ?_, fun c joined => ?_, ?_⟩
  · rcases started_step inv.wired taken mem with old | ⟨state, m, which, found, same⟩
    · exact (inv.started c old).mono [a]
    · rcases which with rfl | rfl
      · exact ⟨done, m, state, List.prefix_append done [a], ran, found, same⟩
      · exact ⟨done ++ [a], m, state, List.prefix_refl _, ranOn, found, same⟩
  · rcases joined_step inv.wired taken joined with
      ⟨before, samePeer⟩ | ⟨p, rfl, isPeer, started, member⟩
    · obtain ⟨p, isPeer, letIn⟩ := inv.joined c before
      exact ⟨p, samePeer.trans isPeer, letIn.mono ran taken joined⟩
    · exact ⟨p, isPeer, (inv.started c started).mono _, .last ran ⟨started, member⟩ taken joined⟩
  · intro payload socketId c status peer mem
    rcases written_step inv.wired taken mem with before | ⟨community, -, socket, -, isPeer, passes⟩
    · obtain ⟨community, socket, p, isPeer, written⟩ :=
        inv.written payload socketId c status peer before
      exact ⟨community, socket, p, isPeer, written.mono a⟩
    · obtain ⟨_, _, _, _, _, _, _, joined⟩ := id passes
      obtain ⟨p, isSome, letIn⟩ := inv.joined c joined
      exact ⟨community, socket, p, isPeer.trans isSome, done, a, [], s, rfl, ran, passes, isSome, letIn⟩

theorem letInInv_run {as : List (Action Blob)} (ran : run (step lfa) (.start stored) as = some s) :
    LetInInv lfa stored as s := by
  refine run_remembers (P := LetInInv lfa stored) ?_ ?_ ran
  · refine ⟨.start stored, fun c mem => absurd mem List.not_mem_nil, fun c joined => ?_, ?_⟩
    · cases joined
    · exact fun _ _ _ _ _ mem => absurd mem List.not_mem_nil
  · exact fun done s a s' before inv taken => letInInv_step before inv taken

end

end QuietStorage.Communities
