import QuietStorage.Communities.Sessions

/-!
# Communities.Expiry — a community nobody uses has an expiry

The sweep takes a community out of the memory when its expiry has passed and it has no connection.
`Lifecycle` is what makes the memory bounded: a community without a connection has an expiry.

`SetsExpiry` is the condition on a step: a load finds its community in memory, and a connection that
dies inside `start` leaves another user connected. `lifecycle_iff` is exact: a run keeps `Lifecycle`
throughout if and only if its steps meet `SetsExpiry`. The sweep itself is right in every reachable
state (`sweep_unused`).

What each operation does to the expiry of one community is said with `Evictable`, which reads who is
registered in place of the size of a map.
-/

set_option autoImplicit false

namespace QuietStorage.Communities

open Lib Sync

variable {Blob : Type}

namespace State

/-! ## The property and its condition -/

/-- Every community without a connection has an expiry. -/
def Lifecycle (s : State Blob) : Prop :=
  ∀ T m, s.communities.get? T = some m → s.connectionCount m = 0 → m.expiryMs ≠ none

/-- A sweep removes only communities that have no connection and whose expiry has passed. -/
def SweepsUnused (s : State Blob) (a : Action Blob) : Prop :=
  ∀ now, a = .sweep now → ∀ T m, s.communities.get? T = some m →
    (s.sweep now).communities.get? T = none →
      s.connectionCount m = 0 ∧ ∃ expiryMs, m.expiryMs = some expiryMs ∧ expiryMs ≤ now

/-- `startAuthSyncConnection` leaves a connection open: a new connection that dies inside `start`
has another user beside it, or takes nobody out of this community. -/
def StartsOpen (s : State Blob) (T : TeamId) (userId : UserId) (socketId : SocketId) (env : Env) :
    Prop :=
  ∀ m, s.communities.get? T = some m → env.dies = true → m.sigChain.teamId = T →
    (∃ existingConn, s.registered T userId = some existingConn ∧
      s.reuses existingConn socketId = true) ∨
    ∃ v, v ≠ userId ∧ s.registered T v ≠ none

/-- No community is left without both a connection and an expiry. -/
structure SetsExpiry (lfa : Lfa Blob) (s : State Blob) (a : Action Blob) : Prop where
  loads : ∀ k caller sigChain team, a = .keysRetrieved k true →
    s.tasks k = .retrievingKeys caller sigChain → lfa.loadTeam sigChain = some team →
    s.communities.get? caller.teamId ≠ none
  signsIn : ∀ k env T userId socketId m, a = .resume k env →
    s.tasks k = .resolved (.signIn T userId socketId) (some m) →
    s.StartsOpen T userId socketId env
  creates : ∀ k env request team, a = .created k env → s.tasks k = .added request team true →
    env.dies = true → team.id ≠ request.teamId

/-! ## One community -/

/-- The community has an expiry if nobody is registered in it. -/
def Evictable (s : State Blob) (T : TeamId) : Prop :=
  ∀ m, s.communities.get? T = some m → s.Unregistered T → m.expiryMs ≠ none

/-- The count of a community in memory is zero when nobody is registered. -/
theorem connectionCount_eq_zero_iff {s : State Blob} {T : TeamId} {m : ManagedCommunity}
    (same : s.mapOf T = m.authConnections) : s.connectionCount m = 0 ↔ s.Unregistered T := by
  constructor
  · exact unregistered_of_count same
  · intro nobody
    unfold connectionCount
    cases isRef : m.authConnections with
    | none => rfl
    | some ref =>
      refine (JsMap.size_eq_zero_iff _).mpr fun u => ?_
      have none_ := nobody u
      rw [registered_eq, same, isRef] at none_
      exact none_

theorem mapOf_eq {s : State Blob} {T : TeamId} {m : ManagedCommunity}
    (found : s.communities.get? T = some m) : s.mapOf T = m.authConnections := by
  rw [mapOf, found, Option.bind_some]

theorem lifecycle_iff_evictable {s : State Blob} : s.Lifecycle ↔ ∀ T, s.Evictable T := by
  refine forall_congr' fun T => forall₂_congr fun m found => ?_
  rw [connectionCount_eq_zero_iff (mapOf_eq found)]

/-- What `Evictable` reads: the community, and who is registered in it. -/
theorem Evictable.congr {s s' : State Blob} {T : TeamId} (evictable : Evictable s T)
    (same : s'.communities.get? T = s.communities.get? T)
    (kept : s'.Unregistered T → s.Unregistered T) : Evictable s' T := by
  intro m found nobody
  rw [same] at found
  exact evictable m found (kept nobody)

theorem Evictable.of_get? {s s' : State Blob} {T : TeamId} (evictable : Evictable s T)
    (same : s'.communities.get? T = s.communities.get? T)
    (maps : s'.authConnections = s.authConnections) : Evictable s' T := by
  apply evictable.congr same
  intro nobody u
  have none_ := nobody u
  rw [registered, same, connectionOf_of_maps maps] at none_
  exact none_

/-! ## What each operation does -/

/-- The end of a connection leaves its community connected, or sets the expiry. -/
theorem evictable_authDisconnected_self (s : State Blob) (c : AuthConnection) (now : Int) :
    Evictable (s.authDisconnected c now) c.sigChain.teamId := by
  intro m' found nobody
  unfold authDisconnected at found nobody
  dsimp only at found nobody
  split at found
  · next absent => exact absurd (absent.symm.trans found) (Option.some_ne_none m').symm
  · next m inMemory =>
    simp only [inMemory] at nobody
    unfold expireUnused at found nobody
    split at found
    · rw [setCommunity, JsMap.get?_set_self] at found
      cases found
      exact Option.some_ne_none _
    · next inUse =>
      rw [if_neg inUse] at nobody
      exact absurd ((connectionCount_eq_zero_iff (mapOf_eq (by
        rw [removeConnection_communities]
        exact inMemory))).mpr nobody) inUse

theorem authDisconnected_get?_of_ne (s : State Blob) (c : AuthConnection) (now : Int) {T : TeamId}
    (other : T ≠ c.sigChain.teamId) :
    (s.authDisconnected c now).communities.get? T = s.communities.get? T := by
  unfold authDisconnected
  dsimp only
  split
  · rfl
  · unfold expireUnused
    split
    · rw [setCommunity, JsMap.get?_set_of_ne _ _ other, removeConnection_communities]
      rfl
    · rw [removeConnection_communities]
      rfl

/-- The end of a connection keeps every community evictable. -/
theorem evictable_authDisconnected {s : State Blob} (wired : Wired s) (c : AuthConnection)
    (now : Int) {T : TeamId} (evictable : Evictable s T) :
    Evictable (s.authDisconnected c now) T := by
  by_cases here : T = c.sigChain.teamId
  · rw [here]
    exact s.evictable_authDisconnected_self c now
  · apply evictable.congr (s.authDisconnected_get?_of_ne c now here)
    intro nobody u
    have none_ := nobody u
    rw [registered_authDisconnected wired, if_neg fun both => here both.1] at none_
    exact none_

theorem evictable_lfaDisconnected {s : State Blob} (wired : Wired s) (c : AuthConnection)
    (now : Int) {T : TeamId} (evictable : Evictable s T) :
    Evictable (s.lfaDisconnected c now) T :=
  evictable_authDisconnected
    ((wired.mono (s.close_shrinks c)).mono (setStatus_shrinks _ c .REJECTED_OR_CLOSED (by decide)))
    c now (evictable.of_get? rfl rfl)

theorem evictable_stop {s : State Blob} (wired : Wired s) (c : AuthConnection) (closes : Bool)
    (now : Int) {T : TeamId} (evictable : Evictable s T) : Evictable (s.stop c closes now) T := by
  cases closes with
  | false =>
    exact evictable_authDisconnected (wired.mono (s.close_shrinks c)) c now
      (evictable.of_get? rfl rfl)
  | true =>
    have ended := evictable_lfaDisconnected wired c now evictable
    have shut := (wired.mono (s.lfaDisconnected_shrinks c now)).mono (close_shrinks _ c)
    exact evictable_authDisconnected shut c now (ended.of_get? rfl rfl)

/-- Who else is found in the map that a connection is put into. -/
theorem registered_register_other {s : State Blob} {c : AuthConnection} {m : ManagedCommunity}
    {ref : MapRef} {v : UserId} (other : v ≠ c.userId) :
    (s.register c m ref).registered c.communityId v = (s.authConnections ref).get? v := by
  have isRef : (s.register c m ref).mapOf c.communityId = some ref := by
    rw [mapOf, register, JsMap.get?_set_self]
    rfl
  rw [registered_eq, isRef, Option.bind_some]
  show (Function.update s.authConnections ref _ ref).get? v = _
  rw [Function.update_self, JsMap.get?_set_of_ne _ _ other]

theorem startConnection_registered {s : State Blob} (wired : Wired s) (c : AuthConnection)
    (env : Env) (T : TeamId) (u : UserId) :
    (s.startConnection c env).registered T u =
      if env.dies = true ∧ T = c.sigChain.teamId ∧ u = c.userId then none
      else s.registered T u := by
  have joining := wired.mono (s.setStatus_shrinks c .JOINING (by decide))
  unfold startConnection
  dsimp only
  by_cases dies : env.dies = true
  · rw [if_pos dies, registered_lfaDisconnected joining]
    simp only [dies, true_and]
    rfl
  · rw [if_neg dies, if_neg fun both => dies both.1]
    rfl

/-- **A start leaves nobody registered** exactly if the new connection dies at once, in its own
community, and no other user is connected. -/
theorem unregistered_connect {s : State Blob} (wired : Wired s) (userId : UserId) (T : TeamId)
    (socketId : SocketId) {m : ManagedCommunity} {ref : MapRef} (isTeam : m.teamId = T)
    (chain : m.sigChain.id < s.next) (own : ref.communityId = T) (env : Env) :
    (s.connect userId T socketId m ref env).Unregistered T ↔
      (env.dies = true ∧ m.sigChain.teamId = T) ∧
        ∀ v, v ≠ userId → (s.authConnections ref).get? v = none := by
  have registered := wired.register userId socketId isTeam chain own
  have itself : (s.register (s.newConnection userId T socketId m) m ref).registered T userId =
      some (s.newConnection userId T socketId m) := by
    have self := registered_register wired (c := s.newConnection userId T socketId m) (m := m) own T
    rw [if_pos (show T = (s.newConnection userId T socketId m).communityId from rfl)] at self
    exact self
  have others (v : UserId) (other : v ≠ userId) :
      (s.register (s.newConnection userId T socketId m) m ref).registered T v =
        (s.authConnections ref).get? v :=
    registered_register_other (c := s.newConnection userId T socketId m) other
  unfold connect Unregistered
  dsimp only
  simp only [registered_clearExpiry, startConnection_registered registered]
  constructor
  · intro nobody
    have gone : env.dies = true ∧ m.sigChain.teamId = T := by
      by_contra stays
      have none_ := nobody userId
      rw [if_neg fun dies => stays ⟨dies.1, dies.2.1.symm⟩, itself] at none_
      cases none_
    refine ⟨gone, fun v other => ?_⟩
    have none_ := nobody v
    rw [if_neg fun dies => other dies.2.2, others v other] at none_
    exact none_
  · rintro ⟨⟨dies, isOwn⟩, alone⟩ v
    by_cases same : v = userId
    · rw [if_pos ⟨dies, isOwn.symm, same⟩]
    · rw [if_neg fun gone => same gone.2.2, others v same]
      exact alone v same

theorem clearExpiry_get?_of_ne (s : State Blob) {T T' : TeamId} (other : T' ≠ T) :
    (s.clearExpiry T).communities.get? T' = s.communities.get? T' := by
  unfold clearExpiry
  split
  · rfl
  · exact JsMap.get?_set_of_ne _ _ other

/-- A start keeps the other communities evictable. -/
theorem evictable_connect_of_ne {s : State Blob} (wired : Wired s) (userId : UserId) {T : TeamId}
    (socketId : SocketId) {m : ManagedCommunity} {ref : MapRef} (isTeam : m.teamId = T)
    (chain : m.sigChain.id < s.next) (own : ref.communityId = T) (env : Env) {T' : TeamId}
    (other : T' ≠ T) (evictable : Evictable s T') :
    Evictable (s.connect userId T socketId m ref env) T' := by
  have registered := wired.register userId socketId isTeam chain own
  have atRegister : Evictable (s.register (s.newConnection userId T socketId m) m ref) T' := by
    apply evictable.congr (JsMap.get?_set_of_ne _ _ other)
    intro nobody u
    rw [← registered_register_of_ne wired (c := s.newConnection userId T socketId m) (m := m)
      own other]
    exact nobody u
  have atStart : Evictable ((s.register (s.newConnection userId T socketId m) m
      ref).startConnection (s.newConnection userId T socketId m) env) T' := by
    unfold startConnection
    dsimp only
    split
    · exact evictable_lfaDisconnected
        (registered.mono (setStatus_shrinks _ _ .JOINING (by decide))) _ _
        (atRegister.of_get? rfl rfl)
    · exact atRegister.of_get? rfl rfl
  unfold connect
  apply atStart.congr (clearExpiry_get?_of_ne _ other)
  intro nobody u
  have none_ := nobody u
  rw [registered_clearExpiry] at none_
  exact none_

/-- A start takes the expiry off its community, so the community is evictable exactly if somebody is
registered in it afterwards. -/
theorem evictable_connect_self {s : State Blob} (userId : UserId) (T : TeamId)
    (socketId : SocketId) (m : ManagedCommunity) (ref : MapRef) (env : Env) :
    Evictable (s.connect userId T socketId m ref env) T ↔
      ¬ (s.connect userId T socketId m ref env).Unregistered T := by
  obtain ⟨m', found, none_⟩ : ∃ m', (s.connect userId T socketId m ref env).communities.get? T =
      some m' ∧ m'.expiryMs = none := by
    obtain ⟨_, _, m', found, _⟩ := s.connect_keeps userId T socketId m ref env
    refine ⟨m', found, ?_⟩
    unfold connect clearExpiry at found
    dsimp only at found
    split at found
    · next absent => exact absurd (absent.symm.trans found) (Option.some_ne_none m').symm
    · rw [setCommunity, JsMap.get?_set_self] at found
      cases found
      rfl
  unfold Evictable
  simp only [found, Option.some.injEq, forall_eq', none_, ne_eq, not_true_eq_false]

/-- Who is left in the map that a user was deleted from. -/
theorem deleted_get? {s : State Blob} {T' : TeamId} {ref : MapRef} (isRef : s.mapOf T' = some ref)
    (userId v : UserId) :
    ((s.deleteConnection ref userId).authConnections ref).get? v =
      (s.deleteConnection ref userId).registered T' v := by
  have kept : (s.deleteConnection ref userId).mapOf T' = some ref := isRef
  rw [registered_eq, kept, Option.bind_some]

/-- Who else is in the map once the connection that is replaced has gone. -/
theorem replaced_get? {s : State Blob} (wired : Wired s) {T : TeamId} {userId : UserId}
    {m : ManagedCommunity} (found : s.communities.get? T = some m) {existingConn : AuthConnection}
    (isExisting : s.registered T userId = some existingConn) (env : Env) {v : UserId}
    (other : v ≠ userId) :
    ((((s.connectionMap T m).1.stop existingConn env.closes env.now).deleteConnection
        (s.connectionMap T m).2 userId).authConnections (s.connectionMap T m).2).get? v =
      s.registered T v := by
  have mapped := wired.mono (s.connectionMap_shrinks T m)
  have stopped := mapped.mono (stop_shrinks _ existingConn env.closes env.now)
  have isRef := mapOf_stopped found isExisting env
  have user : existingConn.userId = userId := (wired.registered isExisting).1
  rw [deleted_get? isRef userId v, registered_deleteConnection stopped isRef,
    if_neg fun both => other both.2, registered_stop mapped,
    if_neg fun both => other (both.2.trans user), registered_connectionMap wired found]

/-- The start of a connection in a map whose other entries are those of the community. -/
theorem evictable_connect {s between : State Blob} (wired : Wired between) {userId : UserId}
    {T : TeamId} {socketId : SocketId} {m : ManagedCommunity} {ref : MapRef} (isTeam : m.teamId = T)
    (chain : m.sigChain.id < between.next) (own : ref.communityId = T) (env : Env)
    (others : ∀ v, v ≠ userId → (between.authConnections ref).get? v = s.registered T v)
    (evictable : ∀ T', T' ≠ T → Evictable between T') :
    (∀ T', Evictable (between.connect userId T socketId m ref env) T') ↔
      (env.dies = true → m.sigChain.teamId = T → ∃ v, v ≠ userId ∧ s.registered T v ≠ none) := by
  have self := evictable_connect_self (s := between) userId T socketId m ref env
  rw [unregistered_connect wired userId T socketId isTeam chain own env] at self
  constructor
  · intro all dies isOwn
    by_contra alone
    refine self.mp (all T) ⟨⟨dies, isOwn⟩, fun v other => ?_⟩
    rw [others v other]
    by_contra somebody
    exact alone ⟨v, other, somebody⟩
  · intro beside T'
    by_cases here : T' = T
    · rw [here]
      refine self.mpr ?_
      rintro ⟨⟨dies, isOwn⟩, alone⟩
      obtain ⟨v, other, somebody⟩ := beside dies isOwn
      exact somebody ((others v other).symm.trans (alone v other))
    · exact evictable_connect_of_ne wired userId socketId isTeam chain own env here
        (evictable T' here)

theorem evictable_connectionMap {s : State Blob} (wired : Wired s) {T : TeamId}
    {m : ManagedCommunity} (found : s.communities.get? T = some m) {T' : TeamId}
    (evictable : Evictable s T') : Evictable (s.connectionMap T m).1 T' := by
  apply evictable.congr
  · unfold connectionMap
    split <;> rfl
  · intro nobody u
    rw [← registered_connectionMap wired found]
    exact nobody u

/-- **`startAuthSyncConnection`** leaves every community evictable exactly if it leaves a connection
open. -/
theorem evictable_startAuthSyncConnection {s s' : State Blob} (wired : Wired s) {userId : UserId}
    {T : TeamId} {socketId : SocketId} {env : Env} (evictable : ∀ T, Evictable s T)
    (started : s.startAuthSyncConnection userId T socketId env = some s') :
    (∀ T', Evictable s' T') ↔ s.StartsOpen T userId socketId env := by
  obtain ⟨m, found, outcome⟩ := startAuthSyncConnection_outcome started
  have mapped := wired.mono (s.connectionMap_shrinks T m)
  have chain := (wired.chain T m found).trans_le (s.connectionMap_shrinks T m).next
  have own := wired.connectionMap_communityId found
  have mappedEvictable (T' : TeamId) : Evictable (s.connectionMap T m).1 T' :=
    evictable_connectionMap wired found (evictable T')
  unfold StartsOpen
  simp only [found, Option.some.injEq, forall_eq']
  cases outcome with
  | fresh nobody =>
    refine (evictable_connect (s := s) mapped (wired.keyed T m found) chain own env
      (fun v _ => connectionMap_get? found v) fun T' _ => mappedEvictable T').trans ?_
    simp only [nobody, reduceCtorEq, false_and, exists_false, false_or]
  | reused existingConn isExisting reuses =>
    exact iff_of_true mappedEvictable fun _ _ => .inl ⟨existingConn, isExisting, reuses⟩
  | replaced existingConn isExisting notReused =>
    have stopped := stop_shrinks (s.connectionMap T m).1 existingConn env.closes env.now
    have stoppedWired := mapped.mono stopped
    have emptied := stopped.trans (deleteConnection_shrinks _ (s.connectionMap T m).2 userId)
    have isRef := mapOf_stopped found isExisting env
    refine (evictable_connect (s := s) (mapped.mono emptied) (wired.keyed T m found)
      (chain.trans_le emptied.next) own env
      (fun v other => replaced_get? wired found isExisting env other) ?_).trans ?_
    · intro T' other
      apply (evictable_stop mapped existingConn env.closes env.now
        (mappedEvictable T')).congr
      · rfl
      · intro nobody u
        have none_ := nobody u
        rw [registered_deleteConnection stoppedWired isRef,
          if_neg fun both => other both.1] at none_
        exact none_
    · simp only [isExisting, Option.some.injEq, exists_eq_left', notReused, Bool.false_eq_true,
        false_or]

theorem load_expiryMs (s : State Blob) (T : TeamId) (team : Team) :
    (s.load T team).2.expiryMs = (s.communities.get? T).bind (·.expiryMs) := by
  unfold load
  dsimp only [newChain]
  cases s.communities.get? T <;> rfl

/-- A load keeps the expiry and the map that the community has in memory; without the community it
sets neither. -/
theorem evictable_load {s : State Blob} (T : TeamId) (team : Team)
    (evictable : ∀ T, Evictable s T) :
    (∀ T', Evictable (s.load T team).1 T') ↔ s.communities.get? T ≠ none := by
  have self : (s.load T team).1.communities.get? T = some (s.load T team).2 :=
    JsMap.get?_set_self ..
  have others (T' : TeamId) (other : T' ≠ T) :
      (s.load T team).1.communities.get? T' = s.communities.get? T' :=
    JsMap.get?_set_of_ne _ _ other
  obtain ⟨_, _, refs⟩ := s.load_spec T team
  constructor
  · intro all absent
    have noMap : (s.load T team).2.authConnections = none := by rw [refs, absent, Option.bind_none]
    have unset : (s.load T team).2.expiryMs = none := by
      rw [load_expiryMs, absent, Option.bind_none]
    refine all T _ self (fun u => ?_) unset
    rw [registered_eq, mapOf_eq self, noMap, Option.bind_none]
  · intro cached T'
    by_cases here : T' = T
    · subst here
      obtain ⟨m, found⟩ := Option.ne_none_iff_exists'.mp cached
      have kept : (s.load T' team).2.expiryMs = m.expiryMs := by
        rw [load_expiryMs, found, Option.bind_some]
      have isMap : (s.load T' team).1.mapOf T' = s.mapOf T' := by
        rw [mapOf_eq self, refs]
        rfl
      intro m' found' nobody
      rw [self] at found'
      cases found'
      rw [kept]
      refine evictable T' m found fun u => ?_
      have none_ := nobody u
      rw [registered_eq, isMap] at none_
      rw [registered_eq]
      exact none_
    · exact (evictable T').of_get? (others T' here) rfl

/-- The community that `create` puts into memory, without a connection and without an expiry. -/
def created (s : State Blob) (T : TeamId) (team : Team) : ManagedCommunity where
  teamId := T
  sigChain := (s.newChain team false).2

theorem putCreated_get? (s : State Blob) (T : TeamId) (team : Team) :
    (s.putCreated T team).communities.get? T = some (s.created T team) :=
  JsMap.get?_set_self ..

/-- The connection of the creator is put into a new map. -/
theorem finishCreate_eq (s : State Blob) (request : CreateRequest Blob) (team : Team) (env : Env) :
    s.finishCreate request team env =
      ((s.putCreated request.teamId team).connectionMap request.teamId
          (s.created request.teamId team)).1.connect request.userId request.teamId request.socketId
        (s.created request.teamId team)
        ((s.putCreated request.teamId team).connectionMap request.teamId
          (s.created request.teamId team)).2 env := by
  unfold finishCreate
  dsimp only
  rw [startAuthSyncConnection_of_no_map (s.putCreated_get? request.teamId team) rfl,
    Option.getD_some]

/-- `create` starts with a community that has neither a connection nor an expiry. -/
theorem evictable_finishCreate {s : State Blob} (wired : Wired s) (request : CreateRequest Blob)
    (team : Team) (env : Env) (evictable : ∀ T, Evictable s T) :
    (∀ T', Evictable (s.finishCreate request team env) T') ↔
      (env.dies = true → team.id ≠ request.teamId) := by
  have found := s.putCreated_get? request.teamId team
  have nobody (u : UserId) :
      (s.putCreated request.teamId team).registered request.teamId u = none := by
    rw [registered, found]
    rfl
  have wiredPut := wired.putCreated request.teamId team
  have mapped := (s.putCreated request.teamId team).connectionMap_shrinks request.teamId
    (s.created request.teamId team)
  have chain := (wiredPut.chain _ _ found).trans_le mapped.next
  rw [finishCreate_eq]
  refine (evictable_connect (s := s.putCreated request.teamId team) (wiredPut.mono mapped) rfl
    chain rfl env (fun v _ => connectionMap_get? found v) ?_).trans ?_
  · intro T' other
    have before : Evictable (s.putCreated request.teamId team) T' :=
      (evictable T').of_get? (JsMap.get?_set_of_ne _ _ other) rfl
    exact evictable_connectionMap wiredPut found before
  · have alone : ¬ ∃ v, v ≠ request.userId ∧
        (s.putCreated request.teamId team).registered request.teamId v ≠ none := by
      rintro ⟨v, _, somebody⟩
      exact somebody (nobody v)
    exact imp_congr_right fun _ => imp_congr_right fun _ => iff_false_intro alone

/-! ## The sweep -/

/-- The sweep at one key: a community stays, perhaps without its expiry, or it was unused. -/
theorem sweepOne_get? {s : State Blob} (keyed : Keyed s) (now : Int) (key : TeamId) {T : TeamId}
    {m : ManagedCommunity} (found : s.communities.get? T = some m) :
    ((sweepOne now s key).communities.get? T = some m ∧
      (sweepOne now s key).authConnections = s.authConnections) ∨
    ((sweepOne now s key).communities.get? T = some { m with expiryMs := none } ∧
      (sweepOne now s key).authConnections = s.authConnections ∧ 0 < s.connectionCount m) ∨
    (sweepOne now s key).communities.get? T = none ∧
      s.connectionCount m = 0 ∧ ∃ expiryMs, m.expiryMs = some expiryMs ∧ expiryMs ≤ now := by
  unfold sweepOne
  split
  · exact .inl ⟨found, rfl⟩
  · next m' found' =>
    have own := keyed key m' found'
    split
    · exact .inl ⟨found, rfl⟩
    · next expiryMs isExpiry =>
      by_cases here : T = key
      · subst here
        cases found.symm.trans found'
        split
        · next inUse =>
          refine .inr (.inl ⟨?_, rfl, inUse⟩)
          rw [setCommunity, own, JsMap.get?_set_self]
        · next unused =>
          split
          · next passed =>
            refine .inr (.inr ⟨?_, Nat.eq_zero_of_not_pos unused, expiryMs, isExpiry, passed⟩)
            rw [own]
            exact JsMap.get?_delete_self _ _
          · exact .inl ⟨found, rfl⟩
      · rw [← own] at here
        split
        · exact .inl ⟨(JsMap.get?_set_of_ne _ _ here).trans found, rfl⟩
        · split
          · exact .inl ⟨(JsMap.get?_delete_of_ne _ here).trans found, rfl⟩
          · exact .inl ⟨found, rfl⟩

/-- **The sweep removes only what is unused and has expired.** -/
theorem sweep_unused {s : State Blob} (keyed : Keyed s) (now : Int) {T : TeamId}
    {m : ManagedCommunity} (found : s.communities.get? T = some m)
    (gone : (s.sweep now).communities.get? T = none) :
    s.connectionCount m = 0 ∧ ∃ expiryMs, m.expiryMs = some expiryMs ∧ expiryMs ≤ now := by
  unfold sweep at gone
  revert gone
  generalize s.communities.keys = keys
  -- the community as the sweep left it so far: as it was, without its expiry, or gone
  induction keys generalizing s m with
  | nil =>
    intro gone
    exact absurd (found.symm.trans gone) (Option.some_ne_none m)
  | cons key keys ih =>
    intro gone
    have keyed' := keyed.mono (sweepOne_shrinks keyed now key)
    rcases sweepOne_get? keyed now key found with ⟨stays, maps⟩ | ⟨stays, _, _⟩ | ⟨_, unused⟩
    · obtain ⟨zero, expired⟩ := ih keyed' stays gone
      refine ⟨?_, expired⟩
      unfold connectionCount at zero ⊢
      rw [← maps]
      exact zero
    · obtain ⟨_, expiryMs, unset, _⟩ := ih keyed' stays gone
      cases unset
    · exact unused

theorem evictable_sweepOne {s : State Blob} (keyed : Keyed s) (now : Int) (key : TeamId)
    {T : TeamId} (evictable : Evictable s T) : Evictable (sweepOne now s key) T := by
  intro m' found nobody
  obtain ⟨m, before, _⟩ := (sweepOne_shrinks keyed now key).communities T m' found
  have kept (maps : (sweepOne now s key).authConnections = s.authConnections)
      (isMap : m'.authConnections = m.authConnections) : s.Unregistered T := by
    intro u
    have none_ := nobody u
    rw [registered_eq, mapOf_eq found, maps, isMap] at none_
    rw [registered_eq, mapOf_eq before]
    exact none_
  rcases sweepOne_get? keyed now key before with ⟨stays, maps⟩ | ⟨stays, maps, inUse⟩ | ⟨gone, _⟩
  · have same : m = m' := Option.some.inj (stays.symm.trans found)
    subst same
    exact evictable m before (kept maps rfl)
  · cases stays.symm.trans found
    have zero := (connectionCount_eq_zero_iff (mapOf_eq before)).mpr (kept maps rfl)
    exact absurd zero (Nat.ne_of_gt inUse)
  · exact absurd (gone.symm.trans found) (Option.some_ne_none m').symm

theorem evictable_sweep {s : State Blob} (keyed : Keyed s) (now : Int) {T : TeamId}
    (evictable : Evictable s T) : Evictable (s.sweep now) T := by
  unfold sweep
  generalize s.communities.keys = keys
  induction keys generalizing s with
  | nil => exact evictable
  | cons key keys ih =>
    exact ih (keyed.mono (sweepOne_shrinks keyed now key)) (evictable_sweepOne keyed now key evictable)

end State

/-! ## Steps and runs -/

section
variable {lfa : Lfa Blob}

open State

/-- The actions that may leave a community without a connection and an expiry. -/
def Action.MayLeaveUnused : Action Blob → Prop
  | .keysRetrieved _ _ | .resume _ _ | .created _ _ => True
  | _ => False

theorem setsExpiry_of_not_mayLeaveUnused {s : State Blob} {a : Action Blob}
    (idle : ¬ a.MayLeaveUnused) : SetsExpiry lfa s a where
  loads := fun _ _ _ _ isAction => by subst isAction; exact (idle trivial).elim
  signsIn := fun _ _ _ _ _ _ isAction => by subst isAction; exact (idle trivial).elim
  creates := fun _ _ _ _ isAction => by subst isAction; exact (idle trivial).elim

theorem setsExpiry_of_plain {s : State Blob} {a : Action Blob} (plain : Plain lfa s a) :
    SetsExpiry lfa s a where
  loads := fun k caller sigChain team isAction waiting isTeam =>
    absurd isTeam (plain.loads k caller sigChain team isAction waiting)
  signsIn := fun k env T userId socketId m isAction waiting =>
    absurd waiting (plain.signsIn k env T userId socketId m isAction)
  creates := fun k env request team isAction waiting =>
    absurd waiting (plain.creates k env request team isAction)

theorem setsExpiry_keysRetrieved {s : State Blob} {k : TaskId} {caller : Caller} {sigChain : Blob}
    {team : Team} (waiting : s.tasks k = .retrievingKeys caller sigChain)
    (isTeam : lfa.loadTeam sigChain = some team) :
    SetsExpiry lfa s (.keysRetrieved k true) ↔ s.communities.get? caller.teamId ≠ none := by
  constructor
  · intro sets
    exact sets.loads k caller sigChain team rfl waiting isTeam
  · intro cached
    constructor
    case loads =>
      intro k' caller' sigChain' team' isAction waiting' _
      cases isAction
      cases waiting.symm.trans waiting'
      exact cached
    all_goals simp

theorem setsExpiry_resume {s : State Blob} {k : TaskId} {env : Env} :
    SetsExpiry lfa s (.resume k env) ↔ ∀ T userId socketId m,
      s.tasks k = .resolved (.signIn T userId socketId) (some m) →
        s.StartsOpen T userId socketId env := by
  constructor
  · intro sets T userId socketId m
    exact sets.signsIn k env T userId socketId m rfl
  · intro opens
    constructor
    case signsIn =>
      intro k' env' T userId socketId m isAction
      cases isAction
      exact opens T userId socketId m
    all_goals simp

theorem setsExpiry_created {s : State Blob} {k : TaskId} {env : Env} {request : CreateRequest Blob}
    {team : Team} (waiting : s.tasks k = .added request team true) :
    SetsExpiry lfa s (.created k env) ↔ (env.dies = true → team.id ≠ request.teamId) := by
  constructor
  · intro sets
    exact sets.creates k env request team rfl waiting
  · intro lives
    constructor
    case creates =>
      intro k' env' request' team' isAction waiting'
      cases isAction
      cases waiting.symm.trans waiting'
      exact lives
    all_goals simp

theorem setsExpiry_of_none {s : State Blob} {a : Action Blob} (idle : step lfa s a = none) :
    SetsExpiry lfa s a where
  loads := by
    intro k caller sigChain team isAction waiting _
    subst isAction
    rw [step, waiting] at idle
    cases idle
  signsIn := by
    intro k env T userId socketId m isAction waiting
    subst isAction
    rw [step, waiting] at idle
    cases idle
  creates := by
    intro k env request team isAction waiting
    subst isAction
    rw [step, waiting] at idle
    cases idle

/-- **One step** keeps every community evictable exactly if it meets the condition. -/
theorem evictable_step {s s' : State Blob} {a : Action Blob} (wired : Wired s)
    (evictable : ∀ T, Evictable s T) (taken : step lfa s a = some s') :
    (∀ T, Evictable s' T) ↔ SetsExpiry lfa s a := by
  cases step_eq_some taken with
  | waits plain =>
    exact iff_of_true (fun T => (evictable T).of_get? rfl rfl) (setsExpiry_of_plain plain)
  | @loads k caller sigChain team waiting isTeam =>
    exact (evictable_load caller.teamId team evictable).trans
      (setsExpiry_keysRetrieved waiting isTeam).symm
  | @receives k env payload socketId m waiting =>
    obtain ⟨events, received, _⟩ := receive_eq (s.setTask k .idle) payload socketId m
    rw [received]
    apply iff_of_true fun T => (evictable T).of_get? rfl rfl
    apply setsExpiry_resume.mpr
    intro T userId socketId' m' waiting'
    cases waiting.symm.trans waiting'
  | @signsIn k env T userId socketId m waiting =>
    have idle (T : TeamId) : Evictable (s.setTask k .idle) T := (evictable T).of_get? rfl rfl
    have opens : SetsExpiry lfa s (.resume k env) ↔ s.StartsOpen T userId socketId env := by
      refine setsExpiry_resume.trans ⟨fun all => all T userId socketId m waiting, ?_⟩
      intro opens T' userId' socketId' m' waiting'
      cases waiting.symm.trans waiting'
      exact opens
    rw [opens]
    cases started : (s.setTask k .idle).startAuthSyncConnection userId T socketId env with
    | some s' =>
      exact evictable_startAuthSyncConnection (wired.mono (s.idle_shrinks k)) idle started
    | none =>
      apply iff_of_true idle
      intro m found
      exact absurd ((startAuthSyncConnection_none started).symm.trans found)
        (Option.some_ne_none m).symm
  | adds =>
    exact iff_of_true (fun T => (evictable T).of_get? rfl rfl) (setsExpiry_of_not_mayLeaveUnused id)
  | @creates k env request team waiting =>
    have idle (T : TeamId) : Evictable (s.setTask k .idle) T := (evictable T).of_get? rfl rfl
    exact (evictable_finishCreate (wired.mono (s.idle_shrinks k)) request team env idle).trans
      (setsExpiry_created waiting).symm
  | connected =>
    exact iff_of_true (fun T => (evictable T).of_get? rfl rfl) (setsExpiry_of_not_mayLeaveUnused id)
  | disconnected =>
    exact iff_of_true (fun T => evictable_lfaDisconnected wired _ _ (evictable T))
      (setsExpiry_of_not_mayLeaveUnused id)
  | updated =>
    rw [update_eq]
    exact iff_of_true (fun T => (evictable T).of_get? rfl rfl) (setsExpiry_of_not_mayLeaveUnused id)
  | socketDisconnected =>
    exact iff_of_true (fun T => evictable_stop wired _ _ _ (evictable T))
      (setsExpiry_of_not_mayLeaveUnused id)
  | writeCompleted =>
    exact iff_of_true (fun T => (evictable T).of_get? rfl rfl) (setsExpiry_of_not_mayLeaveUnused id)
  | sweep =>
    exact iff_of_true (fun T => evictable_sweep wired.keyed _ (evictable T))
      (setsExpiry_of_not_mayLeaveUnused id)
  | restart =>
    apply iff_of_true _ (setsExpiry_of_not_mayLeaveUnused id)
    intro T m found
    cases found

end

/-- **The life cycle of the cache**, exactly: in every run, every community without a connection has
an expiry throughout, and the sweeps remove only what is unused and has expired, if and only if no
load brings in a community that is not in memory and no start ends without a connection. -/
theorem lifecycle_iff (lfa : Lfa Blob) (stored : TeamId → Option Blob) (as : List (Action Blob)) :
    (Throughout (step lfa) State.Lifecycle (.start stored) as ∧
        Along (step lfa) State.SweepsUnused (.start stored) as) ↔
      Along (step lfa) (State.SetsExpiry lfa) (.start stored) as := by
  have sweeps : Along (step lfa) State.SweepsUnused (.start stored) as :=
    along_of_keeps (I := State.Wired) (fun s a s' wired taken => wired_step wired taken)
      (fun s a wired now isSweep T m found gone => State.sweep_unused wired.keyed now found gone)
      (State.Wired.start stored)
  rw [and_iff_left sweeps]
  apply throughout_iff_along (I := State.Wired)
  · intro s a s' wired taken
    exact wired_step wired taken
  · intro s a s' wired kept taken
    rw [State.lifecycle_iff_evictable]
    exact evictable_step wired (State.lifecycle_iff_evictable.mp kept) taken
  · intro s a _ idle
    exact setsExpiry_of_none idle
  · exact .start stored
  · intro T m found
    cases found

/-! ## Two communities that stay -/

/-- Somebody reads a community that is not in memory, and never signs in to it. -/
def readOnce : List (Action Team) :=
  [.get 0 (.reader "team") false, .communityRead 0 true, .keysRetrieved 0 true]

/-- A member signs in and disconnects; the expiry is set. The connection of the next sign-in dies
inside `start`. -/
def diedAtOnce : List (Action Team) :=
  let env : State.Env := { closes := true, dies := false, now := 0 }
  [.get 0 (.signIn "team" "alice" "socket-1") false, .communityRead 0 true, .keysRetrieved 0 true,
    .resume 0 env, .disconnected (onSocket 2 "socket-1") 1,
    .get 0 (.signIn "team" "alice" "socket-2") false,
    .resume 0 { env with dies := true, now := 2 }]

/-- Each leaves the community in memory without a connection and without an expiry. -/
theorem unused_community_stays :
    (∃ s, run (step (.plain fun _ => ["alice"]))
        (.start fun _ => some { id := "team", links := ∅ }) readOnce = some s ∧ ¬ s.Lifecycle) ∧
      ∃ s, run (step (.plain fun _ => ["alice"]))
        (.start fun _ => some { id := "team", links := ∅ }) diedAtOnce = some s ∧ ¬ s.Lifecycle := by
  constructor
  · exact ⟨_, rfl, fun kept => kept "team" _ rfl rfl rfl⟩
  · exact ⟨_, rfl, fun kept => kept "team" _ rfl rfl rfl⟩

end QuietStorage.Communities
