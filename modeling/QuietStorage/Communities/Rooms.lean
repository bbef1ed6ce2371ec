import QuietStorage.Communities.Expiry
import QuietStorage.Communities.Persistence

/-!
# Communities.Rooms — who is in the room of a team

The fan-out of a log entry goes to the room of its team. A socket joins the room when LFA reports
'connected' on a connection of it, and when its `create` has returned; it leaves only when it
disconnects. `roomStep` is the machine of the manager with the rooms beside it.

`RoomsAuthenticated` is what the fan-out relies on: every socket in a room has a registered
connection with the status JOINED. `Ends` says which such connections an action ends, and
`joined_step` that it ends these and no others. From it `rooms_authenticated_iff` is exact: a run
keeps the rooms authenticated if and only if no action ends the last joined connection of a socket in
a room, and no socket joins a room without one.
-/

set_option autoImplicit false

namespace QuietStorage.Communities

open Lib Sync

variable {Blob : Type}

namespace State

/-! ## Joined connections -/

/-- The connection is registered for the user and has the status JOINED. -/
def Joined (s : State Blob) (T : TeamId) (u : UserId) (d : AuthConnection) : Prop :=
  s.registered T u = some d ∧ s.status d = .JOINED

/-- The socket has a registered connection for the team with the status JOINED. -/
def Session (s : State Blob) (T : TeamId) (socketId : SocketId) : Prop :=
  ∃ u d, s.Joined T u d ∧ d.socketId = socketId

/-- The end of `c` ends `d`, which is registered for `u` in `T`: `c` itself, or whoever is registered
for its user in the team of its chain. -/
def EndsWith (c : AuthConnection) (T : TeamId) (u : UserId) (d : AuthConnection) : Prop :=
  d = c ∨ T = c.sigChain.teamId ∧ u = c.userId

/-- `stop` changes the status only if 'disconnected' is emitted. -/
def StopEnds (c : AuthConnection) (closes : Bool) (T : TeamId) (u : UserId) (d : AuthConnection) :
    Prop :=
  closes = true ∧ d = c ∨ T = c.sigChain.teamId ∧ u = c.userId

/-- The start of a connection of `userId` in `T'`, on the chain of `m`, ends who is registered there
for the user, and in the team of the chain if the new connection dies at once. -/
def ConnectEnds (T' : TeamId) (userId : UserId) (team : TeamId) (env : Env) (T : TeamId)
    (u : UserId) : Prop :=
  u = userId ∧ (T = T' ∨ env.dies = true ∧ T = team)

/-- `startAuthSyncConnection` ends the connection it replaces. -/
def StartEnds (s : State Blob) (T' : TeamId) (userId : UserId) (socketId : SocketId) (env : Env)
    (T : TeamId) (u : UserId) (d : AuthConnection) : Prop :=
  ∃ m, s.communities.get? T' = some m ∧
    match s.registered T' userId with
    | none => ConnectEnds T' userId m.sigChain.teamId env T u
    | some existingConn =>
      s.reuses existingConn socketId = false ∧
        (StopEnds existingConn env.closes T u d ∨
          ConnectEnds T' userId m.sigChain.teamId env T u)

/-- **What an action ends** among the joined connections. -/
def Ends (s : State Blob) (a : Action Blob) (T : TeamId) (u : UserId) (d : AuthConnection) : Prop :=
  match a with
  | .disconnected c _ => c ∈ s.started ∧ EndsWith c T u d
  | .socketDisconnected c closes _ => c ∈ s.started ∧ StopEnds c closes T u d
  | .resume k env => ∃ T' userId socketId m,
      s.tasks k = .resolved (.signIn T' userId socketId) (some m) ∧
        s.StartEnds T' userId socketId env T u d
  | .created k env => ∃ request team, s.tasks k = .added request team true ∧
      (T = request.teamId ∨ ConnectEnds request.teamId request.userId team.id env T u)
  | .restart => True
  | _ => False

/-- What reads neither the status nor who is registered. -/
theorem joined_congr {s s' : State Blob} {T : TeamId} {u : UserId} {d : AuthConnection}
    (registered : s'.registered T u = s.registered T u) (status : s'.status d = s.status d) :
    s'.Joined T u d ↔ s.Joined T u d := by
  unfold Joined
  rw [registered, status]

theorem joined_of_same {s s' : State Blob} (communities : s'.communities = s.communities)
    (maps : s'.authConnections = s.authConnections) (status : s'.status = s.status) (T : TeamId)
    (u : UserId) (d : AuthConnection) : s'.Joined T u d ↔ s.Joined T u d := by
  refine joined_congr ?_ ?_
  · unfold registered
    rw [communities, connectionOf_of_maps maps]
  · rw [status]

theorem authDisconnected_status (s : State Blob) (c : AuthConnection) (now : Int) :
    (s.authDisconnected c now).status = s.status := by
  rw [authDisconnected_eq]

theorem lfaDisconnected_status (s : State Blob) (c : AuthConnection) (now : Int) :
    (s.lfaDisconnected c now).status = Function.update s.status c .REJECTED_OR_CLOSED :=
  authDisconnected_status _ c now

theorem joined_lfaDisconnected {s : State Blob} (wired : Wired s) (c : AuthConnection) (now : Int)
    (T : TeamId) (u : UserId) (d : AuthConnection) :
    (s.lfaDisconnected c now).Joined T u d ↔ s.Joined T u d ∧ ¬ EndsWith c T u d := by
  unfold Joined EndsWith
  rw [registered_lfaDisconnected wired, lfaDisconnected_status, Function.update_apply]
  by_cases here : T = c.sigChain.teamId ∧ u = c.userId
  · simp only [here, and_self, if_true, reduceCtorEq, false_and, or_true, not_true_eq_false,
      and_false]
  · by_cases same : d = c
    · simp only [same, if_true, reduceCtorEq, and_false, true_or, not_true_eq_false]
    · simp only [here, same, if_false, or_self, not_false_eq_true, and_true]

theorem joined_stop {s : State Blob} (wired : Wired s) (c : AuthConnection) (closes : Bool)
    (now : Int) (T : TeamId) (u : UserId) (d : AuthConnection) :
    (s.stop c closes now).Joined T u d ↔ s.Joined T u d ∧ ¬ StopEnds c closes T u d := by
  have status : (s.stop c closes now).status =
      if closes then Function.update s.status c .REJECTED_OR_CLOSED else s.status := by
    unfold stop
    dsimp only
    rw [authDisconnected_status]
    cases closes with
    | false => rfl
    | true => exact lfaDisconnected_status s c now
  unfold Joined StopEnds
  rw [registered_stop wired, status]
  by_cases here : T = c.sigChain.teamId ∧ u = c.userId
  · simp only [here, and_self, if_true, reduceCtorEq, false_and, or_true, not_true_eq_false,
      and_false]
  · cases closes with
    | false => simp only [here, if_false, Bool.false_eq_true, false_and, or_self,
        not_false_eq_true, and_true]
    | true =>
      by_cases same : d = c
      · simp only [same, if_true, Function.update_self, reduceCtorEq, and_false, true_and, true_or,
          not_true_eq_false]
      · simp only [here, same, if_true, if_false, Function.update_of_ne same, and_false, or_self,
          not_false_eq_true, and_true]

/-- A new connection is not joined when `start` returns. -/
theorem connect_status (s : State Blob) (userId : UserId) (T : TeamId) (socketId : SocketId)
    (m : ManagedCommunity) (ref : MapRef) (env : Env) (d : AuthConnection) :
    (s.connect userId T socketId m ref env).status d =
      if d = s.newConnection userId T socketId m then
        if env.dies then .REJECTED_OR_CLOSED else .JOINING
      else s.status d := by
  have cleared (s : State Blob) : (s.clearExpiry T).status = s.status := by
    unfold clearExpiry
    split <;> rfl
  unfold connect startConnection
  dsimp only
  rw [cleared]
  by_cases same : d = s.newConnection userId T socketId m
  · rw [if_pos same, same]
    split
    · rw [lfaDisconnected_status, Function.update_self]
    · exact Function.update_self ..
  · rw [if_neg same]
    split
    · rw [lfaDisconnected_status, Function.update_of_ne same]
      show Function.update _ _ _ d = _
      rw [Function.update_of_ne same]
      exact Function.update_of_ne same _ _
    · show Function.update _ _ _ d = _
      rw [Function.update_of_ne same]
      exact Function.update_of_ne same _ _

/-- A connection starts in a map whose other entries are those of the community. -/
theorem joined_connect {s : State Blob} (wired : Wired s) {userId : UserId} {T' : TeamId}
    {socketId : SocketId} {m : ManagedCommunity} {ref : MapRef} (isTeam : m.teamId = T')
    (chain : m.sigChain.id < s.next) (own : ref.communityId = T') (env : Env)
    (others : ∀ v, v ≠ userId → (s.authConnections ref).get? v = s.registered T' v) (T : TeamId)
    (u : UserId) (d : AuthConnection) :
    (s.connect userId T' socketId m ref env).Joined T u d ↔
      s.Joined T u d ∧ ¬ ConnectEnds T' userId m.sigChain.teamId env T u := by
  have registered := wired.register userId socketId isTeam chain own
  have connected : (s.connect userId T' socketId m ref env).registered T u =
      if env.dies = true ∧ T = m.sigChain.teamId ∧ u = userId then none
      else (s.register (s.newConnection userId T' socketId m) m ref).registered T u := by
    unfold connect
    dsimp only
    rw [registered_clearExpiry, startConnection_registered registered]
    rfl
  unfold Joined ConnectEnds
  rw [connected, connect_status]
  by_cases dies : env.dies = true ∧ T = m.sigChain.teamId ∧ u = userId
  · rw [if_pos dies]
    obtain ⟨dies, isChain, same⟩ := dies
    simp only [reduceCtorEq, false_and, dies, isChain, same, and_self, or_true, not_true_eq_false,
      and_false]
  · rw [if_neg dies]
    have notDead : ¬ (u = userId ∧ env.dies = true ∧ T = m.sigChain.teamId) := by
      rintro ⟨same, isDead, isChain⟩
      exact dies ⟨isDead, isChain, same⟩
    rw [and_or_left, or_iff_left notDead]
    have older (e : AuthConnection) (found : s.registered T u = some e) :
        e ≠ s.newConnection userId T' socketId m := by
      intro same
      have low := (wired.registered found).2.2
      rw [same] at low
      exact Nat.lt_irrefl _ low
    by_cases here : u = userId ∧ T = T'
    · obtain ⟨rfl, rfl⟩ := here
      have itself := registered_register wired (c := s.newConnection u T socketId m) (m := m) own T
      rw [if_pos (show T = (s.newConnection u T socketId m).communityId from rfl)] at itself
      rw [show (s.register (s.newConnection u T socketId m) m ref).registered T u =
        some (s.newConnection u T socketId m) from itself]
      simp only [and_self, not_true_eq_false, and_false, iff_false, Option.some.injEq, not_and]
      intro same
      rw [if_pos same.symm]
      split <;> exact AuthStatus.noConfusion
    · have kept : (s.register (s.newConnection userId T' socketId m) m ref).registered T u =
          s.registered T u := by
        by_cases other : T = T'
        · subst other
          have notUser : u ≠ userId := fun same => here ⟨same, rfl⟩
          rw [← others u notUser]
          exact registered_register_other (c := s.newConnection userId T socketId m) notUser
        · exact registered_register_of_ne wired (c := s.newConnection userId T' socketId m) own
            other u
      rw [kept]
      simp only [here, not_false_eq_true, and_true]
      refine and_congr_right fun found => ?_
      rw [if_neg (older d found)]

theorem joined_connectionMap {s : State Blob} (wired : Wired s) {T' : TeamId}
    {m : ManagedCommunity} (found : s.communities.get? T' = some m) (T : TeamId) (u : UserId)
    (d : AuthConnection) : (s.connectionMap T' m).1.Joined T u d ↔ s.Joined T u d := by
  refine joined_congr (registered_connectionMap wired found T u) ?_
  unfold connectionMap
  split <;> rfl

theorem joined_deleteConnection {s : State Blob} (wired : Wired s) {T' : TeamId} {ref : MapRef}
    (isRef : s.mapOf T' = some ref) (v : UserId) (T : TeamId) (u : UserId) (d : AuthConnection) :
    (s.deleteConnection ref v).Joined T u d ↔ s.Joined T u d ∧ ¬ (T = T' ∧ u = v) := by
  unfold Joined
  rw [registered_deleteConnection wired isRef]
  by_cases here : T = T' ∧ u = v
  · simp only [here, and_self, if_true, reduceCtorEq, false_and, not_true_eq_false, and_false]
  · simp only [here, if_false, not_false_eq_true, and_true]
    rfl

/-- **`startAuthSyncConnection`** ends the connection it replaces, and no other. -/
theorem joined_startAuthSyncConnection {s s' : State Blob} (wired : Wired s) {userId : UserId}
    {T' : TeamId} {socketId : SocketId} {env : Env}
    (started : s.startAuthSyncConnection userId T' socketId env = some s') (T : TeamId) (u : UserId)
    (d : AuthConnection) :
    s'.Joined T u d ↔ s.Joined T u d ∧ ¬ s.StartEnds T' userId socketId env T u d := by
  obtain ⟨m, found, outcome⟩ := startAuthSyncConnection_outcome started
  have shrinks := s.connectionMap_shrinks T' m
  have mapped := wired.mono shrinks
  have chain := (wired.chain T' m found).trans_le shrinks.next
  have own := wired.connectionMap_communityId found
  unfold StartEnds
  simp only [found, Option.some.injEq, exists_eq_left']
  cases outcome with
  | fresh nobody =>
    rw [joined_connect mapped (wired.keyed T' m found) chain own env
      (fun v _ => (connectionMap_get? found v).trans (registered_connectionMap wired found T' v).symm),
      joined_connectionMap wired found]
    simp only [nobody]
  | reused existingConn isExisting reuses =>
    rw [joined_connectionMap wired found]
    simp only [isExisting, reuses, Bool.true_eq_false, false_and, not_false_eq_true, and_true]
  | replaced existingConn isExisting notReused =>
    have stopped := mapped.mono (stop_shrinks _ existingConn env.closes env.now)
    have deletion := deleteConnection_shrinks
      ((s.connectionMap T' m).1.stop existingConn env.closes env.now)
      (s.connectionMap T' m).2 userId
    have emptied := (stop_shrinks (s.connectionMap T' m).1 existingConn env.closes env.now).trans
      deletion
    have isRef := mapOf_stopped found isExisting env
    rw [joined_connect (stopped.mono deletion) (wired.keyed T' m found)
      (chain.trans_le emptied.next) own env fun v _ => deleted_get? isRef userId v,
      joined_deleteConnection stopped isRef, joined_stop mapped, joined_connectionMap wired found]
    simp only [isExisting, notReused, true_and, not_or, and_assoc]
    refine and_congr_right fun _ => and_congr_right fun _ => and_iff_right_of_imp fun kept => ?_
    rintro ⟨here, same⟩
    exact kept ⟨same, .inl here⟩

theorem putCreated_registered_of_ne (s : State Blob) {T' : TeamId} (team : Team) {T : TeamId}
    (other : T ≠ T') (u : UserId) : (s.putCreated T' team).registered T u = s.registered T u := by
  unfold registered putCreated setCommunity
  rw [JsMap.get?_set_of_ne _ _ other]
  rfl

/-- **`create`** ends every connection of its community in memory. -/
theorem joined_finishCreate {s : State Blob} (wired : Wired s) (request : CreateRequest Blob)
    (team : Team) (env : Env) (T : TeamId) (u : UserId) (d : AuthConnection) :
    (s.finishCreate request team env).Joined T u d ↔
      s.Joined T u d ∧
        ¬ (T = request.teamId ∨ ConnectEnds request.teamId request.userId team.id env T u) := by
  have found := s.putCreated_get? request.teamId team
  have nobody (u : UserId) :
      (s.putCreated request.teamId team).registered request.teamId u = none := by
    rw [registered, found]
    rfl
  have put : (s.putCreated request.teamId team).Joined T u d ↔
      s.Joined T u d ∧ T ≠ request.teamId := by
    by_cases here : T = request.teamId
    · subst here
      unfold Joined
      rw [nobody]
      simp only [reduceCtorEq, false_and, ne_eq, not_true_eq_false, and_false]
    · rw [joined_congr (s.putCreated_registered_of_ne team here u) rfl]
      simp only [here, ne_eq, not_false_eq_true, and_true]
  have wiredPut := wired.putCreated request.teamId team
  have mapped := (s.putCreated request.teamId team).connectionMap_shrinks request.teamId
    (s.created request.teamId team)
  have chain := (wiredPut.chain _ _ found).trans_le mapped.next
  rw [finishCreate_eq]
  refine (joined_connect (wiredPut.mono mapped) rfl chain rfl env
    (fun v _ => (connectionMap_get? found v).trans
      (registered_connectionMap wiredPut found request.teamId v).symm) T u d).trans ?_
  rw [joined_connectionMap wiredPut found, put, and_assoc, not_or]
  rfl

/-- The sweep removes no registered connection. -/
theorem registered_sweepOne {s : State Blob} (keyed : Keyed s) (now : Int) (key T : TeamId)
    (u : UserId) : (sweepOne now s key).registered T u = s.registered T u := by
  have same := sweepOne_shrinks keyed now key
  cases found : s.communities.get? T with
  | none =>
    have gone : (sweepOne now s key).communities.get? T = none := by
      apply Option.eq_none_iff_forall_ne_some.mpr
      intro m' left
      obtain ⟨m, before, _⟩ := same.communities T m' left
      exact Option.some_ne_none m (before.symm.trans found)
    rw [registered, registered, found, gone]
    rfl
  | some m =>
    rw [registered_eq, registered_eq, mapOf_eq found]
    rcases sweepOne_get? keyed now key found with ⟨stays, maps⟩ | ⟨stays, maps, _⟩ | ⟨gone, zero, _⟩
    · rw [mapOf_eq stays, maps]
    · rw [mapOf_eq stays, maps]
    · have nobody := unregistered_of_count (mapOf_eq found) zero u
      rw [registered_eq, mapOf_eq found] at nobody
      rw [nobody, mapOf, gone]
      rfl

theorem joined_sweep {s : State Blob} (keyed : Keyed s) (now : Int) (T : TeamId) (u : UserId)
    (d : AuthConnection) : (s.sweep now).Joined T u d ↔ s.Joined T u d := by
  unfold sweep
  generalize s.communities.keys = keys
  induction keys generalizing s with
  | nil => exact Iff.rfl
  | cons key keys ih =>
    have status : (sweepOne now s key).status = s.status := by
      unfold sweepOne
      split
      · rfl
      · split
        · rfl
        · split
          · rfl
          · split <;> rfl
    refine (ih (keyed.mono (sweepOne_shrinks keyed now key))).trans ?_
    exact joined_congr (registered_sweepOne keyed now key T u) (congrFun status d)

/-- A load keeps the connections of its community. -/
theorem joined_load (s : State Blob) (T' : TeamId) (team : Team) (T : TeamId) (u : UserId)
    (d : AuthConnection) : (s.load T' team).1.Joined T u d ↔ s.Joined T u d := by
  have self : (s.load T' team).1.communities.get? T' = some (s.load T' team).2 :=
    JsMap.get?_set_self ..
  refine joined_congr ?_ rfl
  rw [registered_eq, registered_eq]
  by_cases here : T = T'
  · subst here
    rw [mapOf_eq self, (s.load_spec T team).2.2]
    rfl
  · have same : (s.load T' team).1.mapOf T = s.mapOf T := by
      unfold mapOf
      rw [show (s.load T' team).1.communities.get? T = s.communities.get? T from
        JsMap.get?_set_of_ne _ _ here]
    rw [same]
    rfl

section
variable {lfa : Lfa Blob}

theorem joined_connected (s : State Blob) (c : AuthConnection) (peer : UserId) (T : TeamId)
    (u : UserId) (d : AuthConnection) :
    ((s.setPeer c peer).setStatus c .JOINED).Joined T u d ↔
      s.registered T u = some d ∧ (d = c ∨ s.status d = .JOINED) := by
  refine and_congr Iff.rfl ?_
  show Function.update s.status c .JOINED d = .JOINED ↔ _
  by_cases same : d = c
  · rw [same, Function.update_self]
    exact iff_of_true rfl (.inl rfl)
  · rw [Function.update_of_ne same, or_iff_right same]

theorem not_ends_of_plain {s : State Blob} {a : Action Blob} (plain : Plain lfa s a)
    (goesOn : a ≠ .restart) (T : TeamId) (u : UserId) (d : AuthConnection) :
    ¬ s.Ends a T u d := by
  intro ends
  cases a with
  | disconnected c now => exact plain.disconnected c now rfl
  | socketDisconnected c closes now => exact plain.socketDisconnected c closes now rfl
  | resume k env =>
    obtain ⟨T', userId, socketId, m, waiting, _⟩ := ends
    exact plain.signsIn k env T' userId socketId m rfl waiting
  | created k env =>
    obtain ⟨request, team, waiting, _⟩ := ends
    exact plain.creates k env request team rfl waiting
  | restart => exact goesOn rfl
  | _ => exact ends

/-- **One step ends what `Ends` says**, and leaves the other joined connections. -/
theorem joined_step {s s' : State Blob} {a : Action Blob} (wired : Wired s)
    (other : ∀ c peer, a ≠ .connected c peer) (taken : step lfa s a = some s') (T : TeamId)
    (u : UserId) (d : AuthConnection) :
    s'.Joined T u d ↔ s.Joined T u d ∧ ¬ s.Ends a T u d := by
  have unended (same : s'.Joined T u d ↔ s.Joined T u d) (idle : ¬ s.Ends a T u d) :
      s'.Joined T u d ↔ s.Joined T u d ∧ ¬ s.Ends a T u d :=
    same.trans (and_iff_left idle).symm
  by_cases isRestart : a = .restart
  · subst isRestart
    have restarted : s' = s.restart := (Option.some.inj taken).symm
    subst restarted
    refine iff_of_false ?_ fun both => both.2 trivial
    rintro ⟨found, _⟩
    have nobody : s.restart.registered T u = none := rfl
    exact Option.some_ne_none d (found.symm.trans nobody)
  cases step_eq_some taken with
  | waits plain =>
    exact unended (joined_of_same rfl rfl rfl T u d) (not_ends_of_plain plain isRestart T u d)
  | @loads k caller sigChain team => exact unended (joined_load s _ team T u d) id
  | @receives k env payload socketId m waiting =>
    obtain ⟨events, received, _⟩ := receive_eq (s.setTask k .idle) payload socketId m
    rw [received] at unended ⊢
    refine unended (joined_of_same rfl rfl rfl T u d) ?_
    rintro ⟨T', userId, socketId', m', waiting', _⟩
    cases waiting.symm.trans waiting'
  | @signsIn k env T' userId socketId m waiting =>
    have ends : s.Ends (.resume k env) T u d ↔ s.StartEnds T' userId socketId env T u d := by
      constructor
      · rintro ⟨T'', userId', socketId', m', waiting', ends⟩
        cases waiting.symm.trans waiting'
        exact ends
      · intro ends
        exact ⟨T', userId, socketId, m, waiting, ends⟩
    rw [ends]
    cases started : (s.setTask k .idle).startAuthSyncConnection userId T' socketId env with
    | some s' =>
      exact joined_startAuthSyncConnection (wired.mono (s.idle_shrinks k)) started T u d
    | none =>
      rw [Option.getD_none, and_iff_left]
      · exact joined_of_same rfl rfl rfl T u d
      · rintro ⟨m', found, _⟩
        exact absurd ((startAuthSyncConnection_none started).symm.trans found)
          (Option.some_ne_none m').symm
  | adds => exact unended (joined_of_same rfl rfl rfl T u d) id
  | @creates k env request team waiting =>
    have ends : s.Ends (.created k env) T u d ↔
        (T = request.teamId ∨ ConnectEnds request.teamId request.userId team.id env T u) := by
      constructor
      · rintro ⟨request', team', waiting', ends⟩
        cases waiting.symm.trans waiting'
        exact ends
      · intro ends
        exact ⟨request, team, waiting, ends⟩
    rw [ends]
    exact joined_finishCreate (wired.mono (s.idle_shrinks k)) request team env T u d
  | connected => exact absurd rfl (other _ _)
  | @disconnected c now started =>
    refine (joined_lfaDisconnected wired c now T u d).trans (and_congr Iff.rfl ?_)
    exact not_congr (and_iff_right started).symm
  | updated =>
    rw [update_eq] at unended ⊢
    exact unended (joined_of_same rfl rfl rfl T u d) id
  | @socketDisconnected c closes now started =>
    refine (joined_stop wired c closes now T u d).trans (and_congr Iff.rfl ?_)
    exact not_congr (and_iff_right started).symm
  | writeCompleted => exact unended (joined_of_same rfl rfl rfl T u d) id
  | @sweep now => exact unended (joined_sweep wired.keyed now T u d) id
  | restart => exact absurd rfl isRestart

end

end State

/-! ## Rooms -/

/-- The manager with the rooms of the socket server. -/
structure Rooms (Blob : Type) where
  state : State Blob
  /-- Which socket is in the room of which team. -/
  members : List (TeamId × SocketId) := []
  /-- The sockets that have disconnected: `join` of such a socket does nothing. -/
  gone : List SocketId := []
  /-- The handlers that go on after `create`, to join the creator to the room. -/
  joins : List (TeamId × SocketId) := []

inductive RoomAction (Blob : Type) where
  | act (a : Action Blob)
  /-- A handler goes on after `create`: `await config.socket.join(teamId)`. -/
  | joinCreated (i : Nat)
  /-- A socket disconnects: it leaves its rooms. Its 'disconnect' listeners are actions of their
  own. -/
  | leave (socketId : SocketId)

namespace Rooms

/-- `socket.join(teamId)`. -/
def join (r : Rooms Blob) (T : TeamId) (socketId : SocketId) : Rooms Blob :=
  if socketId ∈ r.gone then r else { r with members := (T, socketId) :: r.members }

/-- What an action of the manager does to the rooms: the 'connected' handler joins the room of the
chain's team, a create that has succeeded lets its handler go on, and a restart ends all sockets. -/
def after (r : Rooms Blob) (a : Action Blob) (s' : State Blob) : Rooms Blob :=
  match a with
  | .connected c _ => join { r with state := s' } c.sigChain.teamId c.socketId
  | .created k _ =>
    match r.state.tasks k with
    | .added request _ true =>
      { r with state := s', joins := r.joins ++ [(request.teamId, request.socketId)] }
    | _ => { r with state := s' }
  | .restart => { r with state := s', members := [], joins := [] }
  | _ => { r with state := s' }

end Rooms

section
variable (lfa : Lfa Blob)

def roomStep (r : Rooms Blob) : RoomAction Blob → Option (Rooms Blob)
  | .act a => (step lfa r.state a).map (r.after a)
  | .joinCreated i =>
    match r.joins[i]? with
    | none => none
    | some (T, socketId) => some (Rooms.join { r with joins := r.joins.eraseIdx i } T socketId)
  | .leave socketId => some { r with
      members := r.members.filter fun member => decide (member.2 ≠ socketId)
      gone := socketId :: r.gone }

/-- Every socket in the room of a team has a joined connection for it. -/
def RoomsAuthenticated (r : Rooms Blob) : Prop :=
  ∀ T socketId, (T, socketId) ∈ r.members → r.state.Session T socketId

/-- The socket has a joined connection that the action does not end. -/
def Remains (s : State Blob) (a : Action Blob) (T : TeamId) (socketId : SocketId) : Prop :=
  ∃ u d, (s.Joined T u d ∧ d.socketId = socketId) ∧ ¬ s.Ends a T u d

/-- No socket in a room loses its last joined connection, and no socket joins a room without one: an
LFA 'connected' is of a connection that is registered in the team of its chain, or the socket has
another one. -/
def AdmitsAuthenticated (r : Rooms Blob) : RoomAction Blob → Prop
  | .act (.connected c peer) => step lfa r.state (.connected c peer) ≠ none → c.socketId ∉ r.gone →
    r.state.Session c.sigChain.teamId c.socketId ∨
      r.state.registered c.sigChain.teamId c.userId = some c
  | .act .restart => True
  | .act a => ∀ T socketId, (T, socketId) ∈ r.members → r.state.Session T socketId →
    Remains r.state a T socketId
  | .joinCreated i => ∀ T socketId, r.joins[i]? = some (T, socketId) → socketId ∉ r.gone →
    r.state.Session T socketId
  | .leave _ => True

end

section
variable {lfa : Lfa Blob}

namespace Rooms

theorem members_join (r : Rooms Blob) (T T' : TeamId) (socketId socketId' : SocketId) :
    (T', socketId') ∈ (r.join T socketId).members ↔
      (T', socketId') ∈ r.members ∨ socketId ∉ r.gone ∧ T' = T ∧ socketId' = socketId := by
  unfold join
  split
  · next gone => simp only [gone, not_true_eq_false, false_and, or_false]
  · next here =>
    simp only [here, not_false_eq_true, true_and, List.mem_cons, Prod.mk.injEq]
    exact or_comm

@[simp] theorem join_state (r : Rooms Blob) (T : TeamId) (socketId : SocketId) :
    (r.join T socketId).state = r.state := by
  unfold join
  split <;> rfl

@[simp] theorem after_state (r : Rooms Blob) (a : Action Blob) (s' : State Blob) :
    (r.after a s').state = s' := by
  cases a with
  | connected c peer => exact join_state _ _ _
  | created k env =>
    unfold after
    dsimp only
    split <;> rfl
  | _ => rfl

/-- The room of a socket that joins is authenticated exactly if the socket has a session. -/
theorem authenticated_join (r : Rooms Blob) (T : TeamId) (socketId : SocketId) :
    RoomsAuthenticated (r.join T socketId) ↔
      RoomsAuthenticated r ∧ (socketId ∉ r.gone → r.state.Session T socketId) := by
  unfold RoomsAuthenticated
  simp only [members_join, join_state]
  constructor
  · intro all
    exact ⟨fun T' socketId' mem => all T' socketId' (.inl mem),
      fun here => all T socketId (.inr ⟨here, rfl, rfl⟩)⟩
  · rintro ⟨all, joins⟩ T' socketId' (mem | ⟨here, rfl, rfl⟩)
    · exact all T' socketId' mem
    · exact joins here

/-- The members of a room after an action of another kind. -/
theorem after_members (r : Rooms Blob) {a : Action Blob} (s' : State Blob)
    (other : ∀ c peer, a ≠ .connected c peer) (goesOn : a ≠ .restart) :
    (r.after a s').members = r.members := by
  cases a with
  | connected c peer => exact absurd rfl (other c peer)
  | created k env =>
    unfold after
    dsimp only
    split <;> rfl
  | restart => exact absurd rfl goesOn
  | _ => rfl

end Rooms

/-- The sessions that are left after an action. -/
theorem session_step {s s' : State Blob} {a : Action Blob} (wired : s.Wired)
    (other : ∀ c peer, a ≠ .connected c peer) (taken : step lfa s a = some s') (T : TeamId)
    (socketId : SocketId) : s'.Session T socketId ↔ Remains s a T socketId := by
  unfold State.Session Remains
  refine exists₂_congr fun u d => ?_
  rw [State.joined_step wired other taken]
  exact and_right_comm

/-- A 'connected' event ends no session, and makes one if its connection is registered. -/
theorem session_connected {s : State Blob} (wired : s.Wired) (c : AuthConnection) (peer : UserId)
    (T : TeamId) (socketId : SocketId) :
    ((s.setPeer c peer).setStatus c .JOINED).Session T socketId ↔
      s.Session T socketId ∨ c.socketId = socketId ∧ s.registered T c.userId = some c := by
  unfold State.Session
  simp only [State.joined_connected]
  constructor
  · rintro ⟨u, d, ⟨found, rfl | joined⟩, own⟩
    · exact .inr ⟨own, (wired.registered found).1 ▸ found⟩
    · exact .inl ⟨u, d, ⟨found, joined⟩, own⟩
  · rintro (⟨u, d, ⟨found, joined⟩, own⟩ | ⟨own, found⟩)
    · exact ⟨u, d, ⟨found, .inr joined⟩, own⟩
    · exact ⟨c.userId, c, ⟨found, .inl rfl⟩, own⟩

/-- An action of the manager keeps the rooms authenticated exactly if it meets the condition. -/
theorem authenticated_act {r : Rooms Blob} (wired : r.state.Wired)
    (authenticated : RoomsAuthenticated r) {a : Action Blob} {s' : State Blob}
    (taken : step lfa r.state a = some s') :
    RoomsAuthenticated (r.after a s') ↔ AdmitsAuthenticated lfa r (.act a) := by
  by_cases connects : ∃ c peer, a = .connected c peer
  · obtain ⟨c, peer, rfl⟩ := connects
    have isNext : s' = (r.state.setPeer c peer).setStatus c .JOINED := by
      dsimp only [step] at taken
      split at taken
      · exact (Option.some.inj taken).symm
      · cases taken
    have kept : RoomsAuthenticated { r with state := s' } := by
      intro T socketId mem
      rw [isNext]
      exact (session_connected wired c peer T socketId).mpr (.inl (authenticated T socketId mem))
    have enabled : step lfa r.state (.connected c peer) ≠ none := by
      rw [taken]
      exact Option.some_ne_none s'
    have admits : AdmitsAuthenticated lfa r (.act (.connected c peer)) ↔ (c.socketId ∉ r.gone →
        r.state.Session c.sigChain.teamId c.socketId ∨
          r.state.registered c.sigChain.teamId c.userId = some c) := imp_iff_right enabled
    rw [admits]
    refine (Rooms.authenticated_join _ _ _).trans ((and_iff_right kept).trans ?_)
    refine imp_congr_right fun _ => ?_
    show s'.Session _ _ ↔ _
    rw [isNext, session_connected wired]
    simp only [true_and]
  · have other (c : AuthConnection) (peer : UserId) : a ≠ .connected c peer :=
      fun same => connects ⟨c, peer, same⟩
    by_cases isRestart : a = .restart
    · subst isRestart
      exact iff_of_true (fun _ _ mem => absurd mem List.not_mem_nil) trivial
    · have admits : AdmitsAuthenticated lfa r (.act a) ↔ ∀ T socketId, (T, socketId) ∈ r.members →
          r.state.Session T socketId → Remains r.state a T socketId := by
        cases a with
        | connected c peer => exact absurd rfl (other c peer)
        | restart => exact absurd rfl isRestart
        | _ => exact Iff.rfl
      rw [admits]
      unfold RoomsAuthenticated
      rw [Rooms.after_members r s' other isRestart, Rooms.after_state]
      refine forall₃_congr fun T socketId mem => ?_
      rw [session_step wired other taken, imp_iff_right (authenticated T socketId mem)]

/-- **One step** keeps the rooms authenticated exactly if it meets the condition. -/
theorem authenticated_step {r r' : Rooms Blob} {a : RoomAction Blob} (wired : r.state.Wired)
    (authenticated : RoomsAuthenticated r) (stepped : roomStep lfa r a = some r') :
    RoomsAuthenticated r' ↔ AdmitsAuthenticated lfa r a := by
  cases a with
  | act a =>
    obtain ⟨s', taken, rfl⟩ := Option.map_eq_some_iff.mp stepped
    exact authenticated_act wired authenticated taken
  | joinCreated i =>
    dsimp only [roomStep] at stepped
    split at stepped
    · cases stepped
    · next T socketId isJoin =>
      cases stepped
      refine (Rooms.authenticated_join _ T socketId).trans ((and_iff_right authenticated).trans ?_)
      constructor
      · intro session T' socketId' isJoin'
        cases isJoin.symm.trans isJoin'
        exact session
      · intro admits
        exact admits T socketId isJoin
  | leave socketId =>
    cases stepped
    refine iff_of_true ?_ trivial
    intro T socketId' mem
    exact authenticated T socketId' (List.mem_of_mem_filter mem)

theorem wired_roomStep {r r' : Rooms Blob} {a : RoomAction Blob} (wired : r.state.Wired)
    (stepped : roomStep lfa r a = some r') : r'.state.Wired := by
  cases a with
  | act a =>
    obtain ⟨s', taken, rfl⟩ := Option.map_eq_some_iff.mp stepped
    rw [Rooms.after_state]
    exact wired_step wired taken
  | joinCreated i =>
    dsimp only [roomStep] at stepped
    split at stepped
    · cases stepped
    · cases stepped
      rw [Rooms.join_state]
      exact wired
  | leave socketId =>
    cases stepped
    exact wired

/-- Only an action that is enabled ends a connection. -/
theorem not_ends_of_none {s : State Blob} {a : Action Blob} (idle : step lfa s a = none)
    (T : TeamId) (u : UserId) (d : AuthConnection) : ¬ s.Ends a T u d := by
  intro ends
  cases a with
  | disconnected c now =>
    rw [step, if_pos ends.1] at idle
    cases idle
  | socketDisconnected c closes now =>
    rw [step, if_pos ends.1] at idle
    cases idle
  | resume k env =>
    obtain ⟨T', userId, socketId, m, waiting, _⟩ := ends
    rw [step, waiting] at idle
    cases idle
  | created k env =>
    obtain ⟨request, team, waiting, _⟩ := ends
    rw [step, waiting] at idle
    cases idle
  | restart => cases idle
  | _ => exact ends

/-- An action that is not enabled meets the condition. -/
theorem admits_of_none {r : Rooms Blob} {a : RoomAction Blob} (idle : roomStep lfa r a = none) :
    AdmitsAuthenticated lfa r a := by
  cases a with
  | act a =>
    have idle : step lfa r.state a = none := Option.map_eq_none_iff.mp idle
    have remains : ∀ T socketId, (T, socketId) ∈ r.members → r.state.Session T socketId →
        Remains r.state a T socketId := by
      rintro T socketId _ ⟨u, d, joined⟩
      exact ⟨u, d, joined, not_ends_of_none idle T u d⟩
    cases a with
    | connected c peer => exact fun enabled => absurd idle enabled
    | restart => trivial
    | _ => exact remains
  | joinCreated i =>
    intro T socketId isJoin
    dsimp only [roomStep] at idle
    rw [isJoin] at idle
    cases idle
  | leave socketId => cases idle

end

/-- **The rooms stay authenticated, exactly when** no action ends the last joined connection of a
socket in a room and no socket joins a room without one: for every table and every run. -/
theorem rooms_authenticated_iff (lfa : Lfa Blob) (stored : TeamId → Option Blob)
    (as : List (RoomAction Blob)) :
    Throughout (roomStep lfa) RoomsAuthenticated { state := .start stored } as ↔
      Along (roomStep lfa) (AdmitsAuthenticated lfa) { state := .start stored } as := by
  apply throughout_iff_along (I := fun r => r.state.Wired)
  · intro r a r' wired taken
    exact wired_roomStep wired taken
  · intro r a r' wired authenticated taken
    exact authenticated_step wired authenticated taken
  · intro r a _ idle
    exact admits_of_none idle
  · exact .start stored
  · exact fun _ _ mem => absurd mem List.not_mem_nil

/-! ## A creator that is not joined yet, and a socket whose session has ended -/

/-- A community is created, and its creator is put into the room before LFA has connected. -/
def createdRoom : List (RoomAction Team) :=
  [.act (.create 0
      { userId := "alice"
        teamId := "team"
        sigChain := { id := "team", links := {"root"} }
        socketId := "socket" }),
    .act (.serverKeysRetrieved 0 true), .act (.keyringStored 0 true),
    .act (.communityAdded 0 true), .act (.created 0 quietEnv), .joinCreated 0]

/-- A member signs in and is connected, and then its LFA connection is closed. -/
def closedSession : List (RoomAction Team) :=
  [.act (.get 0 (.signIn "team" "alice" "socket") false), .act (.communityRead 0 true),
    .act (.keysRetrieved 0 true), .act (.resume 0 quietEnv),
    .act (.connected (firstConnection true) "alice"),
    .act (.disconnected (firstConnection true) 0)]

/-- A connection whose status was set to something else than JOINED, when no other was joined. -/
theorem not_joined_of_update {c d : AuthConnection} {before : AuthConnection → AuthStatus}
    {status : AuthStatus} (unjoined : status ≠ .JOINED) (others : before d ≠ .JOINED) :
    Function.update before c status d ≠ .JOINED := by
  rw [Function.update_apply]
  split
  · exact unjoined
  · exact others

/-- Both sockets are in the room of the team without a joined connection for it. -/
theorem unauthenticated_in_room :
    (∃ r, run (roomStep (.plain fun _ => ["alice"])) { state := .start fun _ => none }
        createdRoom = some r ∧ ¬ RoomsAuthenticated r) ∧
      ∃ r, run (roomStep (.plain fun _ => ["alice"]))
        { state := .start fun _ => some { id := "team", links := {"root"} } }
        closedSession = some r ∧ ¬ RoomsAuthenticated r := by
  constructor
  · refine ⟨_, rfl, fun authenticated => ?_⟩
    obtain ⟨u, d, ⟨_, joined⟩, _⟩ := authenticated "team" "socket" List.mem_cons_self
    refine absurd joined (not_joined_of_update (c := firstConnection false) (by decide) ?_)
    exact not_joined_of_update (c := firstConnection false) (by decide) AuthStatus.noConfusion
  · refine ⟨_, rfl, fun authenticated => ?_⟩
    obtain ⟨u, d, ⟨found, _⟩, _⟩ := authenticated "team" "socket" List.mem_cons_self
    cases found

end QuietStorage.Communities
