import QuietStorage.Communities.Wiring

/-!
# Communities.Identity — for whom a log entry is written

A sign-in names a user, the connection is kept under that name, and the log sync compares the user
of an entry with the name, with the socket and with the author that the signature names. Who is at
the other end is what the LFA handshake finds out, and the 'connected' handler does not look at it.

`written_checked` says what the chain of checks does guarantee: the entry is handed to storage on a
joined connection of its community on the sending socket, kept under the user that the entry names.
`writes_authenticated` adds that the peer of that connection is the user, in every run whose
handshakes authenticate the user that the sign-in named. `mismatch_is_written` shows that a
handshake of a registered connection that authenticates another member is enough to lose it.
-/

set_option autoImplicit false

namespace QuietStorage.Communities

open Lib Sync

variable {Blob : Type}

namespace State

/-! ## The property and its condition -/

/-- What the checks compare: the entry was written on a joined connection of its community, on the
socket that sent it and under the user that it names. -/
def WrittenChecked (s : State Blob) : Prop :=
  ∀ payload socketId c status peer, .written payload socketId c status peer ∈ s.trace →
    c.communityId = payload.teamId ∧ c.userId = payload.encEntry.userId ∧
      c.socketId = socketId ∧ status = .JOINED

/-- Entries are stored only for the user who authenticated: besides what the checks compare, the LFA
handshake of the connection authenticated the user that the entry names. -/
def Authenticated (s : State Blob) : Prop :=
  ∀ payload socketId c status peer, .written payload socketId c status peer ∈ s.trace →
    c.communityId = payload.teamId ∧ c.socketId = socketId ∧ status = .JOINED ∧
      peer = some payload.encEntry.userId

/-- An LFA handshake authenticates the user that the sign-in named. -/
def NamesPeer (_ : State Blob) : Action Blob → Prop
  | .connected c peer => peer = c.userId
  | _ => True

instance decidableNamesPeer (s : State Blob) (a : Action Blob) : Decidable (NamesPeer s a) :=
  match a with
  | .connected c peer => inferInstanceAs (Decidable (peer = c.userId))
  | .get _ _ _ | .communityRead _ _ | .keysRetrieved _ _ | .resume _ _ | .create _ _
  | .serverKeysRetrieved _ _ | .keyringStored _ _ | .communityAdded _ _ | .created _ _
  | .disconnected _ _ | .updated _ _ | .socketDisconnected _ _ _ | .writeCompleted _ _ | .sweep _
  | .restart => .isTrue trivial

/-- Every joined connection was authenticated as the user it is kept under. -/
def PeersNamed (s : State Blob) : Prop :=
  ∀ c, s.status c = .JOINED → s.peer c = some c.userId

/-! ## What the checks guarantee -/

/-- **The checks of a message**: it passes only on the connection that is registered for its user, which
is joined, of its community and on its socket. -/
theorem receive_spec {s : State Blob} (wired : Wired s) (payload : LogEntrySyncPayload)
    (socketId : SocketId) {found : Option ManagedCommunity}
    (own : ∀ m ref, found = some m → m.authConnections = some ref →
      ref.communityId = payload.teamId) :
    s.receive payload socketId found = s ∨ ∃ m c, found = some m ∧
      checkMessage payload socketId (some (s.sessions m)) = .ok () ∧
      s.connectionOf m payload.encEntry.userId = some c ∧ c.communityId = payload.teamId ∧
      c.userId = payload.encEntry.userId ∧ c.socketId = socketId ∧ s.status c = .JOINED ∧
      s.receive payload socketId found =
        s.record (.written payload socketId c (s.status c) (s.peer c)) := by
  unfold receive
  split
  · exact .inl rfl
  · next passed =>
    obtain ⟨⟨sessions, isSessions, session⟩, _⟩ := checkMessage_ok.mp passed
    obtain ⟨m, rfl, rfl⟩ := Option.map_eq_some_iff.mp isSessions
    obtain ⟨c, registered, isSession⟩ := Option.map_eq_some_iff.mp session
    injection isSession with socket joined
    rw [Option.bind_some, registered]
    obtain ⟨ref, isRef, inMap⟩ := Option.bind_eq_some_iff.mp registered
    obtain ⟨user, community, _⟩ := wired.mapped ref _ c inMap
    exact .inr ⟨m, c, rfl, passed, registered, community.trans (own m ref rfl isRef), user, socket,
      joined, rfl⟩

/-- A message that passes is handed to storage on the connection that is registered for its user. -/
theorem receive_of_checked {s : State Blob} {payload : LogEntrySyncPayload} {socketId : SocketId}
    {m : ManagedCommunity} {c : AuthConnection}
    (checked : checkMessage payload socketId (some (s.sessions m)) = .ok ())
    (registered : s.connectionOf m payload.encEntry.userId = some c) :
    s.receive payload socketId (some m) =
      s.record (.written payload socketId c (s.status c) (s.peer c)) := by
  unfold receive
  rw [Option.map_some, checked, Option.bind_some, registered]

end State

/-! ## Steps and runs -/

section
variable {lfa : Lfa Blob}

open State

/-- The action lets the message pass: its task goes on, and its check finds the connection that is
registered for its user, which is joined. -/
def Passes (s : State Blob) (a : Action Blob) (payload : LogEntrySyncPayload) (socketId : SocketId)
    (c : AuthConnection) : Prop :=
  ∃ k env m, a = .resume k env ∧ s.tasks k = .resolved (.logEntrySync payload socketId) (some m) ∧
    checkMessage payload socketId (some (s.sessions m)) = .ok () ∧
    s.connectionOf m payload.encEntry.userId = some c ∧ s.status c = .JOINED

/-- A written entry is an earlier one, or it has just passed the checks. -/
theorem written_step {s s' : State Blob} {a : Action Blob} (wired : Wired s)
    (taken : step lfa s a = some s') {payload : LogEntrySyncPayload} {socketId : SocketId}
    {c : AuthConnection} {status : AuthStatus} {peer : Option UserId}
    (mem : .written payload socketId c status peer ∈ s'.trace) :
    .written payload socketId c status peer ∈ s.trace ∨
      (c.communityId = payload.teamId ∧ c.userId = payload.encEntry.userId ∧
        c.socketId = socketId ∧ status = .JOINED ∧ peer = s.peer c ∧
        Passes s a payload socketId c) := by
  have earlier (e : Event) (other : e ≠ .written payload socketId c status peer)
      (mem : .written payload socketId c status peer ∈ s.trace ++ [e]) :
      .written payload socketId c status peer ∈ s.trace := by
    rcases List.mem_append.mp mem with mem | mem
    · exact mem
    · exact absurd (List.mem_singleton.mp mem).symm other
  have shrunk (s' : State Blob) (shrinks : Shrinks s s')
      (mem : .written payload socketId c status peer ∈ s'.trace) :
      .written payload socketId c status peer ∈ s.trace :=
    ((Calm.of_shrinks shrinks).mem_trace id).mp mem
  cases step_eq_some taken with
  | waits => exact .inl mem
  | loads => exact .inl (earlier _ (by simp) mem)
  | @receives k env payload' socketId' found waiting =>
    have idle := wired.mono (s.idle_shrinks k)
    have own : ∀ m ref, found = some m → m.authConnections = some ref →
        ref.communityId = payload'.teamId := by
      intro m ref isFound isRef
      subst isFound
      exact wired.resolved k _ m ref waiting isRef
    rcases receive_spec idle payload' socketId' own with
      same | ⟨m, c', rfl, passed, registered, community, user, socket, joined, now⟩
    · rw [same] at mem
      exact .inl mem
    · rw [now] at mem
      rcases List.mem_append.mp mem with mem | mem
      · exact .inl mem
      · cases List.mem_singleton.mp mem
        exact .inr ⟨community, user, socket, joined, rfl, k, env, m, rfl, waiting, passed, registered,
          joined⟩
  | @signsIn k env T userId socketId' _ _ =>
    have calm := (Calm.of_shrinks (s.idle_shrinks k)).trans
      (startAuthSyncConnection_calm (s.setTask k .idle) userId T socketId' env)
    exact .inl ((calm.mem_trace id).mp mem)
  | adds => exact .inl mem
  | @creates k env request team _ =>
    have calm := startAuthSyncConnection_calm
      ((s.setTask k .idle).putCreated request.teamId team) request.userId request.teamId
      request.socketId env
    exact .inl ((calm.mem_trace id).mp mem)
  | connected => exact .inl mem
  | disconnected => exact .inl (shrunk _ (s.lfaDisconnected_shrinks _ _) mem)
  | updated =>
    rw [update_eq] at mem
    exact .inl (earlier _ (by simp) mem)
  | socketDisconnected => exact .inl (shrunk _ (s.stop_shrinks _ _ _) mem)
  | writeCompleted => exact .inl mem
  | sweep => exact .inl (shrunk _ (sweep_shrinks wired.keyed _) mem)
  | restart => exact .inl (shrunk _ s.restart_shrinks mem)

/-- A step whose handshake, if it is one, names the user keeps the peers named. -/
theorem peersNamed_step {s s' : State Blob} {a : Action Blob} (wired : Wired s)
    (named : PeersNamed s) (names : NamesPeer s a) (taken : step lfa s a = some s') :
    PeersNamed s' := by
  have calmly (s' : State Blob) (calm : Calm s s') : PeersNamed s' := by
    intro c joined
    obtain ⟨before, peer⟩ := calm.joined c joined
    rw [peer]
    exact named c before
  cases step_eq_some taken with
  | waits => exact named
  | loads => exact named
  | @receives k env payload socketId found _ =>
    obtain ⟨events, received, _⟩ := receive_eq (s.setTask k .idle) payload socketId found
    rw [received]
    exact named
  | @signsIn k env T userId socketId _ _ =>
    apply calmly
    apply (Calm.of_shrinks (s.idle_shrinks k)).trans
    exact startAuthSyncConnection_calm _ userId T socketId env
  | adds => exact named
  | @creates k env request team _ =>
    have calm := startAuthSyncConnection_calm
      ((s.setTask k .idle).putCreated request.teamId team) request.userId request.teamId
      request.socketId env
    intro c joined
    obtain ⟨before, peer⟩ := calm.joined c joined
    exact peer.trans (named c before)
  | @connected c peer _ _ =>
    have isUser : peer = c.userId := names
    intro c' joined
    simp only [setStatus, setPeer, Function.update_apply] at joined ⊢
    split
    · next same => rw [same, isUser]
    · next other =>
      rw [if_neg other] at joined
      exact named c' joined
  | disconnected => exact calmly _ (.of_shrinks (s.lfaDisconnected_shrinks _ _))
  | updated =>
    rw [update_eq]
    exact named
  | socketDisconnected => exact calmly _ (.of_shrinks (s.stop_shrinks _ _ _))
  | writeCompleted => exact named
  | sweep => exact calmly _ (.of_shrinks (sweep_shrinks wired.keyed _))
  | restart => exact calmly _ (.of_shrinks s.restart_shrinks)

/-- **What the checks guarantee in every run**, whoever is at the other end. -/
theorem written_checked (stored : TeamId → Option Blob) {as : List (Action Blob)}
    {s : State Blob} (ran : run (step lfa) (.start stored) as = some s) : WrittenChecked s := by
  have start : WrittenChecked (State.start stored) := by
    intro payload socketId c status peer mem
    exact absurd mem List.not_mem_nil
  have inv : Wired s ∧ WrittenChecked s := by
    refine run_keeps (P := fun s => Wired s ∧ WrittenChecked s) ?_ ⟨.start stored, start⟩ ran
    intro s a s' ⟨wired, checked⟩ taken
    refine ⟨wired_step wired taken, ?_⟩
    intro payload socketId c status peer mem
    rcases written_step wired taken mem with before | ⟨community, user, socket, joined, _⟩
    · exact checked payload socketId c status peer before
    · exact ⟨community, user, socket, joined⟩
  exact inv.2

end

/-- **Entries are stored only for the user who authenticated**, in every run whose LFA handshakes
authenticate the user that the sign-in of the connection named. -/
theorem writes_authenticated (lfa : Lfa Blob) (stored : TeamId → Option Blob)
    (as : List (Action Blob)) (along : Along (step lfa) State.NamesPeer (.start stored) as) :
    Throughout (step lfa) State.Authenticated (.start stored) as := by
  refine throughout_of_along (I := fun s => s.Wired ∧ s.PeersNamed ∧ s.Authenticated) ?_
    (fun _ inv => inv.2.2) ?_ along
  · intro s a s' ⟨wired, named, authenticated⟩ names taken
    refine ⟨wired_step wired taken, peersNamed_step wired named names taken, ?_⟩
    intro payload socketId c status peer mem
    rcases written_step wired taken mem with
      before | ⟨community, user, socket, isJoined, isPeer, _, _, _, _, _, _, _, joined⟩
    · exact authenticated payload socketId c status peer before
    · exact ⟨community, socket, isJoined, isPeer.trans (user ▸ named c joined)⟩
  · exact ⟨.start stored, fun _ joined => (by cases joined),
      fun _ _ _ _ _ mem => absurd mem List.not_mem_nil⟩

/-! ## A member who signs in under another name -/

/-- An entry that names `userId`, signed in that name. -/
def entryOf (teamId : TeamId) (userId : UserId) : LogEntrySyncPayload where
  teamId := teamId
  hash := "hash"
  hashedDbId := "db"
  encEntry :=
    { encrypted := { contents := [1], scope := { type := .TEAM, name := none, generation := 0 } }
      signature :=
        { signature := "sig", author := { type := "USER", name := userId, generation := 0 } }
      ts := 0
      userId := userId
      teamId := teamId }

/-- A sign-in as one user, a handshake that authenticates `peer`, and an entry of the user. -/
def signedInAs (peer : UserId) : List (Action Team) :=
  let env : State.Env := { closes := true, dies := false, now := 0 }
  let connection : AuthConnection :=
    { id := 2
      userId := "alice"
      communityId := "team"
      sigChain := { id := 0, teamId := "team", listens := true }
      socketId := "socket" }
  [.get 0 (.signIn "team" "alice" "socket") false, .communityRead 0 true, .keysRetrieved 0 true,
    .resume 0 env, .connected connection peer,
    .get 0 (.logEntrySync (entryOf "team" "alice") "socket") false, .resume 0 env]

theorem writes_authenticated_own_name :
    Throughout (step (.plain fun _ => ["alice", "mallory"])) State.Authenticated
      (.start fun _ => some { id := "team", links := ∅ }) (signedInAs "alice") :=
  writes_authenticated _ _ _ (by decide)

theorem written_under_another_name :
    ¬ Throughout (step (.plain fun _ => ["alice", "mallory"])) State.Authenticated
      (.start fun _ => some { id := "team", links := ∅ }) (signedInAs "mallory") := by
  intro throughout
  have authenticated := throughout.of_run rfl
  have named := authenticated (entryOf "team" "alice") "socket" _ _ (some "mallory")
    (List.mem_append_right _ (List.mem_singleton_self _))
  exact absurd named.2.2.2 (by decide)

/-- **A handshake that authenticates another member is enough**: with it, the next entry on the
socket that names the user of a registered connection is handed to storage although the peer is not
that user. -/
theorem mismatch_is_written (lfa : Lfa Blob) {s : State Blob} {c : AuthConnection} {T : TeamId}
    {peer : UserId} {k : TaskId} (registered : s.registered T c.userId = some c)
    (started : c ∈ s.started) (member : peer ∈ lfa.members (s.team c.sigChain))
    (other : peer ≠ c.userId) (idle : s.tasks k = .idle) (env : State.Env) :
    ∃ s', run (step lfa) s [.connected c peer,
        .get k (.logEntrySync (entryOf T c.userId) c.socketId) false, .resume k env] = some s' ∧
      ¬ s'.Authenticated := by
  obtain ⟨m, found, connection⟩ := Option.bind_eq_some_iff.mp registered
  let caller : Caller := .logEntrySync (entryOf T c.userId) c.socketId
  let joined := (s.setPeer c peer).setStatus c .JOINED
  let resolved := joined.setTask k (.resolved caller (some m))
  have connected : step lfa s (.connected c peer) = some joined := if_pos ⟨started, member⟩
  have got : step lfa joined (.get k caller false) = some resolved := by
    have waiting : joined.tasks k = .idle := idle
    have inMemory : joined.communities.get? caller.teamId = some m := found
    simp only [step, waiting, State.get, inMemory]
    rfl
  have resumed : step lfa resolved (.resume k env) =
      some ((resolved.setTask k .idle).receive (entryOf T c.userId) c.socketId (some m)) := by
    have waiting : resolved.tasks k = .resolved caller (some m) := Function.update_self ..
    simp only [step, waiting]
    rfl
  have status : joined.status c = .JOINED := Function.update_self ..
  have checked : checkMessage (entryOf T c.userId) c.socketId
      ((some m).map (resolved.setTask k .idle).sessions) = .ok () := by
    refine checkMessage_ok.mpr ⟨⟨_, rfl, ?_⟩, rfl⟩
    show (s.connectionOf m c.userId).map _ = _
    rw [connection, Option.map_some]
    exact congrArg some (congrArg (Session.mk c.socketId) status)
  have received : (resolved.setTask k .idle).receive (entryOf T c.userId) c.socketId (some m) =
      (resolved.setTask k .idle).record
        (.written (entryOf T c.userId) c.socketId c (joined.status c) (joined.peer c)) :=
    State.receive_of_checked checked connection
  refine ⟨(resolved.setTask k .idle).record
    (.written (entryOf T c.userId) c.socketId c (joined.status c) (joined.peer c)), ?_, ?_⟩
  · rw [run_cons, connected, Option.bind_some, run_cons, got, Option.bind_some, run_cons, resumed,
      received]
    rfl
  · intro authenticated
    have named := authenticated (entryOf T c.userId) c.socketId c (joined.status c) (joined.peer c)
      (List.mem_append_right _ (List.mem_singleton_self _))
    have isPeer : joined.peer c = some peer := Function.update_self ..
    exact other (Option.some.inj (isPeer.symm.trans named.2.2.2))

end QuietStorage.Communities
