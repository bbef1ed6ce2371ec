import QuietStorage.Communities.Rooms

/-!
# Communities.Takeover — whose session a sign-in ends

A sign-in names a user, and nothing is known of the socket that sends it until LFA has made its
handshake. `startAuthSyncConnection` runs before that: a connection that is registered for the user on
another socket is stale to it, and is replaced.

`SparesSessions` is what a sign-in should leave alone: every connection of the team that is JOINED on
another socket that is still connected. `startEnds_iff` says which of them it ends, and
`sessions_spared_iff` is exact: a run spares the sessions if and only if no sign-in goes on for a user
who has such a connection. The sessions of the other users are always spared.
-/

set_option autoImplicit false

namespace QuietStorage.Communities

open Lib Sync

variable {Blob : Type}

/-- The caller whose `get` an action begins or moves on. -/
def Action.caller? (s : State Blob) : Action Blob → Option Caller
  | .get _ caller _ => some caller
  | .communityRead k _ | .keysRetrieved k _ | .resume k _ =>
    match s.tasks k with
    | .reading caller | .retrievingKeys caller _ | .resolved caller _ => some caller
    | _ => none
  | _ => none

/-- No connection of the socket for the team has completed an LFA handshake. -/
def State.Unproven (s : State Blob) (T : TeamId) (socketId : SocketId) : Prop :=
  ∀ c ∈ s.started, c.communityId = T → c.socketId = socketId → s.peer c = none

/-- The connection is registered for the user and JOINED, on a socket other than `socketId` that is
still connected. -/
structure Rooms.LiveElsewhere (r : Rooms Blob) (socketId : SocketId) (T : TeamId) (u : UserId)
    (d : AuthConnection) : Prop where
  joined : r.state.Joined T u d
  other : d.socketId ≠ socketId
  connected : d.socketId ∉ r.gone

section
variable (lfa : Lfa Blob)

/-- What a sign-in from a socket without a handshake does leaves the sessions of the team on other
sockets as they are. -/
def SparesSessions (r : Rooms Blob) (a : RoomAction Blob) : Prop :=
  ∀ b T userId socketId r', a = .act b → b.caller? r.state = some (.signIn T userId socketId) →
    r.state.Unproven T socketId → roomStep lfa r a = some r' →
    ∀ u d, r.LiveElsewhere socketId T u d → r'.state.Joined T u d

end

/-- A sign-in from a socket without a handshake goes on only for a user who has no session on another
socket. -/
def ClaimsNobody (r : Rooms Blob) (a : RoomAction Blob) : Prop :=
  ∀ k env T userId socketId m, a = .act (.resume k env) →
    r.state.tasks k = .resolved (.signIn T userId socketId) (some m) →
    r.state.Unproven T socketId → ∀ d, ¬ r.LiveElsewhere socketId T userId d

namespace State

/-- **Of the joined connections of its team** a sign-in ends the one of the user it names, if that is
on another socket. -/
theorem startEnds_iff {s : State Blob} (wired : Wired s) {T : TeamId} {u : UserId}
    {d : AuthConnection} (joined : s.Joined T u d) (userId : UserId) (socketId : SocketId)
    (env : Env) : s.StartEnds T userId socketId env T u d ↔ u = userId ∧ d.socketId ≠ socketId := by
  obtain ⟨found, isJoined⟩ := joined
  obtain ⟨m, _, inMemory, _, _⟩ := registered_eq_some.mp found
  have reuses : s.reuses d socketId = false ↔ d.socketId ≠ socketId := by
    simp [reuses, isJoined]
  unfold StartEnds
  simp only [inMemory, Option.some.injEq, exists_eq_left']
  constructor
  · intro ends
    cases isExisting : s.registered T userId with
    | none =>
      rw [isExisting] at ends
      -- a connection that nobody makes room for ends none of its team
      have same : u = userId := ends.1
      rw [← same, found] at isExisting
      cases isExisting
    | some existingConn =>
      rw [isExisting] at ends
      obtain ⟨notReused, ends⟩ := ends
      have same : u = userId := by
        have user := (wired.registered isExisting).1
        rcases ends with (⟨_, rfl⟩ | ⟨_, same⟩) | ⟨same, _⟩
        · exact (wired.registered found).1.symm.trans user
        · exact same.trans user
        · exact same
      rw [← same, found] at isExisting
      cases isExisting
      exact ⟨same, reuses.mp notReused⟩
  · rintro ⟨rfl, other⟩
    rw [found]
    exact ⟨reuses.mpr other, .inr ⟨rfl, .inl rfl⟩⟩

end State

section
variable {lfa : Lfa Blob}

/-- **One action** spares the sessions exactly if it meets the condition. -/
theorem sparesSessions_iff {r : Rooms Blob} (wired : r.state.Wired) (a : RoomAction Blob) :
    SparesSessions lfa r a ↔ ClaimsNobody r a := by
  constructor
  · intro spares k env T userId socketId m isAction waiting unproven d live
    subst isAction
    have isCaller : (Action.resume k env).caller? r.state =
        some (.signIn T userId socketId) := by
      simp only [Action.caller?, waiting]
    obtain ⟨s', taken⟩ : ∃ s', step lfa r.state (.resume k env) = some s' := by
      rw [step, waiting]
      exact ⟨_, rfl⟩
    have stepped : roomStep lfa r (.act (.resume k env)) = some (r.after (.resume k env) s') := by
      rw [roomStep, taken, Option.map_some]
    have kept := spares _ T userId socketId _ rfl isCaller unproven stepped userId d live
    rw [Rooms.after_state, State.joined_step wired (by simp) taken] at kept
    apply kept.2
    exact ⟨T, userId, socketId, m, waiting,
      (State.startEnds_iff wired live.joined userId socketId env).mpr ⟨rfl, live.other⟩⟩
  · intro claims b T userId socketId r' isAction isCaller unproven stepped u d live
    subst isAction
    obtain ⟨s', taken, rfl⟩ := Option.map_eq_some_iff.mp stepped
    have other : ∀ c peer, b ≠ .connected c peer := by
      intro c peer isConnected
      subst isConnected
      cases isCaller
    rw [Rooms.after_state, State.joined_step wired other taken]
    refine ⟨live.joined, fun ends => ?_⟩
    -- of the actions that a sign-in consists of, only the last ends a connection
    cases b with
    | resume k env =>
      obtain ⟨T', userId', socketId', m, waiting, ends⟩ := ends
      simp only [Action.caller?, waiting, Option.some.injEq, Caller.signIn.injEq] at isCaller
      obtain ⟨rfl, rfl, rfl⟩ := isCaller
      obtain ⟨rfl, _⟩ := (State.startEnds_iff wired live.joined userId' socketId' env).mp ends
      exact claims k env T' u socketId' m rfl waiting unproven d live
    | get k caller force => exact ends
    | communityRead k answers => exact ends
    | keysRetrieved k found => exact ends
    | _ => cases isCaller

end

/-- **A sign-in ends nobody's live session, exactly when** it goes on only for users who have none on
another connected socket: for every table of communities and every run. -/
theorem sessions_spared_iff (lfa : Lfa Blob) (stored : TeamId → Option Blob)
    (as : List (RoomAction Blob)) :
    Along (roomStep lfa) (SparesSessions lfa) { state := .start stored } as ↔
      Along (roomStep lfa) ClaimsNobody { state := .start stored } as := by
  apply along_congr (I := fun r => r.state.Wired)
  · intro r a r' wired taken
    exact wired_roomStep wired taken
  · intro r a wired
    exact sparesSessions_iff wired a
  · exact .start stored

/-! ## A socket that claims another's user id -/

/-- A member signs in on one socket and is joined. Another socket, on which there was no handshake,
sends a sign-in under the same user id. -/
def secondSignIn : List (RoomAction Team) :=
  [.act (.get 0 (.signIn "team" "alice" "socket-1") false), .act (.communityRead 0 true),
    .act (.keysRetrieved 0 true), .act (.resume 0 quietEnv),
    .act (.connected (onSocket 2 "socket-1") "alice"),
    .act (.get 0 (.signIn "team" "alice" "socket-2") false)]

/-- When it goes on, the session of the member is gone. -/
theorem session_taken_over :
    ¬ Along (roomStep (.plain fun _ => ["alice"])) (SparesSessions (.plain fun _ => ["alice"]))
      { state := .start fun _ => some { id := "team", links := ∅ } }
      (secondSignIn ++ [.act (.resume 0 quietEnv)]) := by
  intro spares
  have last := spares.of_run rfl
  have kept := last (.resume 0 quietEnv) "team" "alice" "socket-2" _ rfl rfl ?_ rfl "alice"
    (onSocket 2 "socket-1") ⟨⟨rfl, rfl⟩, by decide, by decide⟩
  · exact absurd kept.1 (by decide)
  · intro c mem _ onOther
    cases List.mem_singleton.mp mem
    exact absurd onOther (by decide)

end QuietStorage.Communities
