import QuietStorage.Communities.Wiring

/-!
# Communities.Sessions — a disconnect and the session it removes

Connections are kept by user id, and the `AuthDisconnected` handler deletes whatever is kept under
the user id of the connection that ended, in the community that its chain names. `Superseded` says
that this is another connection. `SessionsKept` is what the manager should guarantee: no such event
ever removed a connection other than its own, and a community with a registered connection has no
expiry.

`registered_authDisconnected`, `registered_stop` and `registered_register` say what each operation
does to the registered connections, `clean_authDisconnected` up to `clean_startAuthSyncConnection`
which removals it makes. `sessions_kept_iff` is exact: in a run, `SessionsKept` holds throughout if
and only if no connection ends while it is superseded.
-/

set_option autoImplicit false

namespace QuietStorage.Communities

open Lib Sync

variable {Blob : Type}

namespace State

/-! ## The property and its condition -/

/-- Another connection is registered where the end of this one will delete. -/
def Superseded (s : State Blob) (c : AuthConnection) : Prop :=
  ∃ d, s.registered c.sigChain.teamId c.userId = some d ∧ d ≠ c

/-- No `AuthDisconnected` event removed a connection other than its own. -/
def Clean (s : State Blob) : Prop :=
  ∀ c d, Event.authDisconnected c (some d) ∈ s.trace → d = c

/-- With a registered connection the community has no expiry. -/
def Unexpired (s : State Blob) (T : TeamId) : Prop :=
  ∀ m, s.communities.get? T = some m → m.expiryMs = none ∨ s.Unregistered T

/-- A disconnect has only removed the session that ended. -/
structure SessionsKept (s : State Blob) : Prop where
  clean : Clean s
  unexpired : ∀ T, Unexpired s T

/-- A connection on the chain `sigChain` that dies inside `start` finds itself or nothing: the chain
is of the community's own team, or nobody is registered for the user in the team of the chain. -/
def DiesAlone (s : State Blob) (T : TeamId) (userId : UserId) (team : TeamId) : Prop :=
  team = T ∨ s.registered team userId = none

/-- `startAuthSyncConnection` ends only connections that are not superseded: the one it replaces, and
the new one if it dies at once (which may find the place of the replaced one empty). -/
def StartsClean (s : State Blob) (T : TeamId) (userId : UserId) (socketId : SocketId) (env : Env) :
    Prop :=
  ∀ m, s.communities.get? T = some m →
    match s.registered T userId with
    | none => env.dies = true → s.DiesAlone T userId m.sigChain.teamId
    | some existingConn =>
      s.reuses existingConn socketId = false →
        ¬ s.Superseded existingConn ∧
        (env.dies = true → existingConn.sigChain.teamId = m.sigChain.teamId ∨
          s.DiesAlone T userId m.sigChain.teamId)

/-- No connection ends while it is superseded. -/
structure EndsOwn (s : State Blob) (a : Action Blob) : Prop where
  disconnected : ∀ c now, a = .disconnected c now → c ∈ s.started → ¬ s.Superseded c
  socketDisconnected : ∀ c closes now, a = .socketDisconnected c closes now → c ∈ s.started →
    ¬ s.Superseded c
  signsIn : ∀ k env T userId socketId m, a = .resume k env →
    s.tasks k = .resolved (.signIn T userId socketId) (some m) →
    s.StartsClean T userId socketId env
  creates : ∀ k env request team, a = .created k env → s.tasks k = .added request team true →
    env.dies = true → s.DiesAlone request.teamId request.userId team.id

/-! ## What is registered after each operation -/

theorem connectionOf_of_maps {s s' : State Blob} (maps : s'.authConnections = s.authConnections) :
    s'.connectionOf = s.connectionOf := by
  unfold connectionOf
  rw [maps]

theorem registered_eq_some {s : State Blob} {T : TeamId} {u : UserId} {c : AuthConnection} :
    s.registered T u = some c ↔ ∃ m ref, s.communities.get? T = some m ∧
      m.authConnections = some ref ∧ (s.authConnections ref).get? u = some c := by
  unfold registered connectionOf
  constructor
  · intro found
    obtain ⟨m, inMemory, found⟩ := Option.bind_eq_some_iff.mp found
    obtain ⟨ref, isRef, found⟩ := Option.bind_eq_some_iff.mp found
    exact ⟨m, ref, inMemory, isRef, found⟩
  · intro ⟨m, ref, inMemory, isRef, found⟩
    rw [inMemory, Option.bind_some, isRef, Option.bind_some, found]

/-- Who is registered is known by user and community. -/
theorem Wired.registered {s : State Blob} (wired : Wired s) {T : TeamId} {u : UserId}
    {c : AuthConnection} (found : s.registered T u = some c) :
    c.userId = u ∧ c.communityId = T ∧ c.id < s.next := by
  obtain ⟨m, ref, inMemory, isRef, inMap⟩ := registered_eq_some.mp found
  obtain ⟨user, community, low, _⟩ := wired.mapped ref u c inMap
  exact ⟨user, community.trans (wired.ref T m ref inMemory isRef), low⟩

/-- The map of a community in memory. -/
def mapOf (s : State Blob) (T : TeamId) : Option MapRef :=
  (s.communities.get? T).bind (·.authConnections)

theorem registered_eq (s : State Blob) (T : TeamId) (u : UserId) :
    s.registered T u = (s.mapOf T).bind fun ref => (s.authConnections ref).get? u := by
  rw [registered, mapOf, Option.bind_assoc]
  rfl

theorem mapOf_same {s s' : State Blob} (same : SameCommunities s s') (T : TeamId) :
    s'.mapOf T = s.mapOf T := by
  have eq := congrArg (fun m => m.bind ManagedCommunity.authConnections) (same T)
  simp only [Option.bind_map] at eq
  exact eq

theorem Wired.mapOf {s : State Blob} (wired : Wired s) {T : TeamId} {ref : MapRef}
    (isRef : s.mapOf T = some ref) : ref.communityId = T := by
  obtain ⟨m, found, isRef⟩ := Option.bind_eq_some_iff.mp isRef
  exact wired.ref T m ref found isRef

/-- Deleting a user from the map of one community. -/
theorem registered_deleteConnection {s : State Blob} (wired : Wired s) {T : TeamId} {ref : MapRef}
    (isRef : s.mapOf T = some ref) (u : UserId) (T' : TeamId) (v : UserId) :
    (s.deleteConnection ref u).registered T' v =
      if T' = T ∧ v = u then none else s.registered T' v := by
  have same : (s.deleteConnection ref u).mapOf T' = s.mapOf T' := rfl
  rw [registered_eq, registered_eq, same]
  by_cases here : T' = T
  · subst here
    rw [isRef, Option.bind_some, Option.bind_some]
    show (Function.update s.authConnections ref _ ref).get? v = _
    rw [Function.update_self, JsMap.get?_delete]
    simp only [true_and]
  · rw [if_neg fun both => here both.1]
    cases isRef' : s.mapOf T' with
    | none => rfl
    | some ref' =>
      have other : ref' ≠ ref := by
        intro equal
        exact here ((wired.mapOf isRef').symm.trans (equal ▸ wired.mapOf isRef))
      show (Function.update s.authConnections ref _ ref').get? v = (s.authConnections ref').get? v
      rw [Function.update_of_ne other]

/-- The maps after the end of a connection. -/
theorem authDisconnected_maps (s : State Blob) (c : AuthConnection) (now : Int) :
    (s.authDisconnected c now).authConnections =
      match s.mapOf c.sigChain.teamId with
      | none => s.authConnections
      | some ref => (s.deleteConnection ref c.userId).authConnections := by
  unfold authDisconnected mapOf
  dsimp only
  split
  · next absent =>
    have absent : s.communities.get? c.sigChain.teamId = none := absent
    rw [absent]
    rfl
  · next m found =>
    have found : s.communities.get? c.sigChain.teamId = some m := found
    rw [found, Option.bind_some, expireUnused_eq]
    unfold removeConnection
    cases m.authConnections <;> rfl

/-- **The end of a connection** takes away whoever is registered for its user in the community that
its chain names, and nobody else. -/
theorem registered_authDisconnected {s : State Blob} (wired : Wired s) (c : AuthConnection)
    (now : Int) (T : TeamId) (u : UserId) :
    (s.authDisconnected c now).registered T u =
      if T = c.sigChain.teamId ∧ u = c.userId then none else s.registered T u := by
  have same := mapOf_same (s.authDisconnected_same c now) T
  cases isRef : s.mapOf c.sigChain.teamId with
  | none =>
    have kept : (s.authDisconnected c now).registered T u = s.registered T u := by
      rw [registered_eq, registered_eq, same, authDisconnected_maps, isRef]
    rw [kept]
    split
    · next here => rw [registered_eq, here.1, isRef, Option.bind_none]
    · rfl
  | some ref =>
    rw [← registered_deleteConnection wired isRef, registered_eq, registered_eq, same,
      authDisconnected_maps, isRef]
    rfl

theorem registered_lfaDisconnected {s : State Blob} (wired : Wired s) (c : AuthConnection)
    (now : Int) (T : TeamId) (u : UserId) :
    (s.lfaDisconnected c now).registered T u =
      if T = c.sigChain.teamId ∧ u = c.userId then none else s.registered T u := by
  have closed := (wired.mono (s.close_shrinks c)).mono
    (setStatus_shrinks _ c .REJECTED_OR_CLOSED (by decide))
  exact registered_authDisconnected closed c now T u

/-- However its LFA connection closes, a stopped connection deletes as one that ended. -/
theorem registered_stop {s : State Blob} (wired : Wired s) (c : AuthConnection) (closes : Bool)
    (now : Int) (T : TeamId) (u : UserId) :
    (s.stop c closes now).registered T u =
      if T = c.sigChain.teamId ∧ u = c.userId then none else s.registered T u := by
  cases closes with
  | false => exact registered_authDisconnected (wired.mono (s.close_shrinks c)) c now T u
  | true =>
    have ended := wired.mono (s.lfaDisconnected_shrinks c now)
    have again := registered_authDisconnected (ended.mono (close_shrinks _ c)) c now T u
    have first : ((s.lfaDisconnected c now).close c).registered T u = _ :=
      registered_lfaDisconnected wired c now T u
    rw [first] at again
    rw [show s.stop c true now = ((s.lfaDisconnected c now).close c).authDisconnected c now from rfl,
      again]
    split
    · rfl
    · rfl

/-- A registration changes nothing for another community. -/
theorem registered_register_of_ne {s : State Blob} (wired : Wired s) {c : AuthConnection}
    {m : ManagedCommunity} {ref : MapRef} (own : ref.communityId = c.communityId) {T : TeamId}
    (other : T ≠ c.communityId) (u : UserId) :
    (s.register c m ref).registered T u = s.registered T u := by
  have same : (s.register c m ref).mapOf T = s.mapOf T := by
    unfold mapOf register
    rw [JsMap.get?_set_of_ne _ _ other]
  rw [registered_eq, registered_eq, same]
  cases isRef : s.mapOf T with
  | none => rfl
  | some ref' =>
    have otherMap : ref' ≠ ref := by
      intro equal
      exact other ((wired.mapOf isRef).symm.trans (equal ▸ own))
    show (Function.update s.authConnections ref _ ref').get? u = _
    rw [Function.update_of_ne otherMap]
    rfl

/-- The new connection is registered for its user, and no user of another community changes. -/
theorem registered_register {s : State Blob} (wired : Wired s) {c : AuthConnection}
    {m : ManagedCommunity} {ref : MapRef} (own : ref.communityId = c.communityId) (T : TeamId) :
    (s.register c m ref).registered T c.userId =
      if T = c.communityId then some c else s.registered T c.userId := by
  by_cases here : T = c.communityId
  · rw [if_pos here]
    refine registered_eq_some.mpr ⟨{ m with authConnections := some ref }, ref, ?_, rfl, ?_⟩
    · rw [here]
      exact JsMap.get?_set_self ..
    · show (Function.update s.authConnections ref _ ref).get? c.userId = some c
      rw [Function.update_self, JsMap.get?_set_self]
  · rw [if_neg here, registered_register_of_ne wired own here]

theorem registered_clearExpiry (s : State Blob) (T T' : TeamId) (u : UserId) :
    (s.clearExpiry T).registered T' u = s.registered T' u := by
  have maps : (s.clearExpiry T).authConnections = s.authConnections := by
    unfold clearExpiry
    split <;> rfl
  rw [registered_eq, registered_eq, mapOf_same (s.clearExpiry_same T), maps]

/-- Making a map for a community that has none registers nobody. -/
theorem registered_connectionMap {s : State Blob} (wired : Wired s) {T : TeamId}
    {m : ManagedCommunity} (found : s.communities.get? T = some m) (T' : TeamId) (u : UserId) :
    (s.connectionMap T m).1.registered T' u = s.registered T' u := by
  unfold connectionMap
  split
  · rfl
  · next noMap =>
    rw [registered_eq, registered_eq]
    show (s.mapOf T').bind _ = _
    cases isRef : s.mapOf T' with
    | none => rfl
    | some ref =>
      have other : ref ≠ { id := s.next, communityId := T } := by
        intro equal
        have here : T' = T := (wired.mapOf isRef).symm.trans (congrArg MapRef.communityId equal)
        rw [here, mapOf, found, Option.bind_some, noMap] at isRef
        cases isRef
      show (Function.update s.authConnections _ _ ref).get? u = _
      rw [Function.update_of_ne other]
      rfl

/-- The map that a connection is put into is one of its community. -/
theorem Wired.connectionMap_communityId {s : State Blob} (wired : Wired s) {T : TeamId}
    {m : ManagedCommunity} (found : s.communities.get? T = some m) :
    (s.connectionMap T m).2.communityId = T := by
  rcases s.connectionMap_ref T m with isRef | own
  · exact wired.ref T m _ found isRef
  · exact own.1

/-! ## Which removals each operation makes -/

theorem clean_of_trace {s s' : State Blob} (same : s'.trace = s.trace) : Clean s' ↔ Clean s := by
  unfold Clean
  rw [same]

/-- An event that is no removal. -/
theorem clean_append {s s' : State Blob} (events : List Event)
    (trace : s'.trace = s.trace ++ events)
    (other : ∀ c d, Event.authDisconnected c d ∉ events) : Clean s' ↔ Clean s := by
  unfold Clean
  rw [trace]
  constructor
  · intro clean c d mem
    exact clean c d (List.mem_append_left _ mem)
  · intro clean c d mem
    rcases List.mem_append.mp mem with mem | mem
    · exact clean c d mem
    · exact absurd mem (other c _)

/-- The end of a connection removes another exactly if it is superseded. -/
theorem clean_authDisconnected (s : State Blob) (c : AuthConnection) (now : Int) :
    Clean (s.authDisconnected c now) ↔ Clean s ∧ ¬ s.Superseded c := by
  unfold Clean
  rw [authDisconnected_trace]
  constructor
  · intro clean
    refine ⟨fun c' d mem => clean c' d (List.mem_append_left _ mem), ?_⟩
    intro ⟨d, found, other⟩
    rw [found] at clean
    exact other (clean c d (List.mem_append_right _ (List.mem_singleton_self _)))
  · intro ⟨clean, own⟩ c' d mem
    rcases List.mem_append.mp mem with mem | mem
    · exact clean c' d mem
    · injection List.mem_singleton.mp mem with isC found
      by_contra other
      exact own ⟨d, found.symm, isC ▸ other⟩

theorem clean_lfaDisconnected (s : State Blob) (c : AuthConnection) (now : Int) :
    Clean (s.lfaDisconnected c now) ↔ Clean s ∧ ¬ s.Superseded c :=
  clean_authDisconnected _ c now

/-- A stopped connection that emits twice deletes at most once. -/
theorem clean_stop {s : State Blob} (wired : Wired s) (c : AuthConnection) (closes : Bool)
    (now : Int) : Clean (s.stop c closes now) ↔ Clean s ∧ ¬ s.Superseded c := by
  cases closes with
  | false => exact clean_authDisconnected _ c now
  | true =>
    have gone : ¬ ((s.lfaDisconnected c now).close c).Superseded c := by
      intro ⟨d, found, _⟩
      have none_ : (s.lfaDisconnected c now).registered c.sigChain.teamId c.userId = none := by
        rw [registered_lfaDisconnected wired, if_pos ⟨rfl, rfl⟩]
      exact Option.some_ne_none d (found.symm.trans none_)
    show Clean (((s.lfaDisconnected c now).close c).authDisconnected c now) ↔ _
    rw [clean_authDisconnected, and_iff_left gone]
    exact clean_lfaDisconnected s c now

/-- The new connection is superseded at once only if its chain is of another team in which its user
is registered. -/
theorem superseded_register {s : State Blob} (wired : Wired s) {c : AuthConnection}
    {m : ManagedCommunity} {ref : MapRef} (own : ref.communityId = c.communityId) :
    ¬ (s.register c m ref).Superseded c ↔
      s.DiesAlone c.communityId c.userId c.sigChain.teamId := by
  unfold Superseded DiesAlone
  rw [registered_register wired own]
  by_cases here : c.sigChain.teamId = c.communityId
  · rw [if_pos here]
    refine iff_of_true ?_ (.inl here)
    intro ⟨d, same, other⟩
    exact other (Option.some.inj same).symm
  · rw [if_neg here, or_iff_right here]
    constructor
    · intro notSuperseded
      apply Option.eq_none_iff_forall_ne_some.mpr
      intro d found
      apply notSuperseded
      refine ⟨d, found, ?_⟩
      intro same
      exact here ((wired.registered found).2.1.symm.trans (congrArg _ same))
    · intro none_ ⟨d, found, _⟩
      exact Option.some_ne_none d (found.symm.trans none_)

@[simp] theorem clearExpiry_trace (s : State Blob) (T : TeamId) :
    (s.clearExpiry T).trace = s.trace := by
  unfold clearExpiry
  split <;> rfl

theorem clean_connect {s : State Blob} (wired : Wired s) (userId : UserId) (T : TeamId)
    (socketId : SocketId) (m : ManagedCommunity) {ref : MapRef} (own : ref.communityId = T)
    (env : Env) :
    Clean (s.connect userId T socketId m ref env) ↔
      Clean s ∧ (env.dies = true → s.DiesAlone T userId m.sigChain.teamId) := by
  unfold connect startConnection
  dsimp only
  rw [clean_of_trace (clearExpiry_trace _ _)]
  split
  · next dies =>
    simp only [dies, forall_const]
    refine (clean_lfaDisconnected _ _ _).trans (and_congr Iff.rfl ?_)
    exact superseded_register wired (c := s.newConnection userId T socketId m) own
  · next lives =>
    rw [and_iff_left fun dies => absurd dies lives]
    rfl

/-- A community with somebody registered keeps its map while a connection of it is replaced. -/
theorem mapOf_stopped {s : State Blob} {T : TeamId} {userId : UserId} {m : ManagedCommunity}
    (found : s.communities.get? T = some m) {existingConn : AuthConnection}
    (isExisting : s.registered T userId = some existingConn) (env : Env) :
    ((s.connectionMap T m).1.stop existingConn env.closes env.now).mapOf T =
      some (s.connectionMap T m).2 := by
  rw [mapOf_same (stop_same _ _ _ _)]
  obtain ⟨m', ref, found', isRef, _⟩ := registered_eq_some.mp isExisting
  cases found.symm.trans found'
  unfold connectionMap mapOf
  rw [isRef]
  show (s.communities.get? T).bind _ = _
  rw [found, Option.bind_some, isRef]

/-- Once the connection it replaces is gone, a new connection finds nobody where that one was. -/
theorem diesAlone_of_replaced {s : State Blob} (wired : Wired s) {T : TeamId} {userId : UserId}
    {m : ManagedCommunity} (found : s.communities.get? T = some m) {existingConn : AuthConnection}
    (isExisting : s.registered T userId = some existingConn) (env : Env) (team : TeamId) :
    (((s.connectionMap T m).1.stop existingConn env.closes env.now).deleteConnection
        (s.connectionMap T m).2 userId).DiesAlone T userId team ↔
      existingConn.sigChain.teamId = team ∨ s.DiesAlone T userId team := by
  have user : existingConn.userId = userId := (wired.registered isExisting).1
  have mapped := wired.mono (s.connectionMap_shrinks T m)
  have stopped := mapped.mono (stop_shrinks _ existingConn env.closes env.now)
  have isRef := mapOf_stopped found isExisting env
  unfold DiesAlone
  rw [registered_deleteConnection stopped isRef, registered_stop mapped,
    registered_connectionMap wired found]
  by_cases here : team = T
  · simp only [here, true_or, or_true]
  · simp only [here, if_false, false_or, user, and_true]
    by_cases same : team = existingConn.sigChain.teamId
    · simp only [same, if_true, true_or]
    · simp only [same, if_false, Ne.symm same, false_or]

theorem clean_startAuthSyncConnection {s s' : State Blob} (wired : Wired s) {userId : UserId}
    {T : TeamId} {socketId : SocketId} {env : Env}
    (started : s.startAuthSyncConnection userId T socketId env = some s') :
    Clean s' ↔ Clean s ∧ s.StartsClean T userId socketId env := by
  obtain ⟨m, found, outcome⟩ := startAuthSyncConnection_outcome started
  have mapped := wired.mono (s.connectionMap_shrinks T m)
  have own := wired.connectionMap_communityId found
  have clean : Clean (s.connectionMap T m).1 ↔ Clean s := by
    apply clean_of_trace
    unfold connectionMap
    split <;> rfl
  unfold StartsClean
  simp only [found, Option.some.injEq, forall_eq']
  cases outcome with
  | fresh nobody =>
    simp only [nobody]
    rw [clean_connect mapped _ _ _ _ own, clean]
    unfold DiesAlone
    rw [registered_connectionMap wired found]
  | reused existingConn isExisting reuses =>
    simp only [isExisting, reuses, Bool.true_eq_false, false_implies, and_true]
    exact clean
  | replaced existingConn isExisting notReused =>
    simp only [isExisting, notReused, forall_const]
    have stopped := mapped.mono (stop_shrinks _ existingConn env.closes env.now)
    have emptied := stopped.mono (deleteConnection_shrinks _ (s.connectionMap T m).2 userId)
    have replaced : ¬ (s.connectionMap T m).1.Superseded existingConn ↔
        ¬ s.Superseded existingConn := by
      unfold Superseded
      rw [registered_connectionMap wired found]
    have dies := diesAlone_of_replaced wired found isExisting env
    rw [clean_connect emptied _ _ _ _ own, dies]
    have deleted : Clean (((s.connectionMap T m).1.stop existingConn env.closes env.now
        ).deleteConnection (s.connectionMap T m).2 userId) ↔ _ :=
      clean_stop mapped existingConn env.closes env.now
    rw [deleted, clean, replaced, and_assoc]

/-! ## Expiries -/

/-- What `Unexpired` reads: the community, and who is registered in it. -/
theorem Unexpired.congr {s s' : State Blob} {T : TeamId} (unexpired : Unexpired s T)
    (same : s'.communities.get? T = s.communities.get? T)
    (gone : s.Unregistered T → s'.Unregistered T) : Unexpired s' T := by
  intro m found
  rw [same] at found
  exact (unexpired m found).imp_right gone

/-- The community and the maps are untouched. -/
theorem Unexpired.of_get? {s s' : State Blob} {T : TeamId} (unexpired : Unexpired s T)
    (same : s'.communities.get? T = s.communities.get? T)
    (maps : s'.authConnections = s.authConnections) : Unexpired s' T := by
  apply unexpired.congr same
  intro none_ u
  rw [registered, same, connectionOf_of_maps maps]
  exact none_ u

theorem unexpired_deleteConnection {s : State Blob} (ref : MapRef) (u : UserId) {T : TeamId}
    (unexpired : Unexpired s T) : Unexpired (s.deleteConnection ref u) T := by
  apply unexpired.congr
  · rfl
  · intro none_ v
    apply Option.eq_none_iff_forall_ne_some.mpr
    intro c found
    obtain ⟨m, ref', inMemory, isRef, inMap⟩ := registered_eq_some.mp found
    have before : s.registered T v = some c :=
      registered_eq_some.mpr ⟨m, ref', inMemory, isRef, mem_of_get?_delete inMap⟩
    exact Option.some_ne_none c (before.symm.trans (none_ v))

/-- A count of zero is nobody registered. -/
theorem unregistered_of_count {s : State Blob} {T : TeamId} {m : ManagedCommunity}
    (same : s.mapOf T = m.authConnections) (zero : s.connectionCount m = 0) :
    s.Unregistered T := by
  intro u
  rw [registered_eq, same]
  unfold connectionCount at zero
  cases isRef : m.authConnections with
  | none => rfl
  | some ref =>
    rw [isRef] at zero
    exact (JsMap.size_eq_zero_iff _).mp zero u

/-- A community after the end of a connection is as before, or nobody is registered in it. -/
theorem authDisconnected_get? {s : State Blob} (c : AuthConnection) (now : Int) {T : TeamId}
    {m' : ManagedCommunity} (found : (s.authDisconnected c now).communities.get? T = some m') :
    s.communities.get? T = some m' ∨ (s.authDisconnected c now).Unregistered T := by
  unfold authDisconnected at found ⊢
  dsimp only at found ⊢
  split at found
  · exact .inl found
  · next m inMemory =>
    unfold expireUnused at found ⊢
    split at found
    · next zero =>
      rw [if_pos zero]
      simp only [setCommunity, JsMap.get?_set] at found
      split at found
      · next here =>
        refine .inr (unregistered_of_count ?_ zero)
        rw [mapOf, setCommunity, here, JsMap.get?_set_self]
        rfl
      · rw [removeConnection_communities] at found
        exact .inl found
    · rw [removeConnection_communities] at found
      exact .inl found

/-- The expiry is set when nobody is registered any more. -/
theorem unexpired_authDisconnected {s : State Blob} (wired : Wired s) (c : AuthConnection)
    (now : Int) {T : TeamId} (unexpired : Unexpired s T) :
    Unexpired (s.authDisconnected c now) T := by
  intro m' found
  rcases authDisconnected_get? c now found with before | unregistered
  · refine (unexpired m' before).imp_right ?_
    intro none_ u
    rw [registered_authDisconnected wired, none_ u]
    exact ite_self _
  · exact .inr unregistered

theorem unexpired_lfaDisconnected {s : State Blob} (wired : Wired s) (c : AuthConnection)
    (now : Int) {T : TeamId} (unexpired : Unexpired s T) :
    Unexpired (s.lfaDisconnected c now) T :=
  unexpired_authDisconnected
    ((wired.mono (s.close_shrinks c)).mono (setStatus_shrinks _ c .REJECTED_OR_CLOSED (by decide)))
    c now (unexpired.congr rfl id)

theorem unexpired_stop {s : State Blob} (wired : Wired s) (c : AuthConnection) (closes : Bool)
    (now : Int) {T : TeamId} (unexpired : Unexpired s T) : Unexpired (s.stop c closes now) T := by
  cases closes with
  | false =>
    exact unexpired_authDisconnected (wired.mono (s.close_shrinks c)) c now (unexpired.congr rfl id)
  | true =>
    have ended := unexpired_lfaDisconnected wired c now unexpired
    have shut := (wired.mono (s.lfaDisconnected_shrinks c now)).mono (close_shrinks _ c)
    exact unexpired_authDisconnected shut c now (ended.congr rfl id)

/-- A start removes the expiry of its own community, and touches no other. -/
theorem unexpired_connect {s : State Blob} (wired : Wired s) (userId : UserId) (T : TeamId)
    (socketId : SocketId) {m : ManagedCommunity} {ref : MapRef} (isTeam : m.teamId = T)
    (chain : m.sigChain.id < s.next) (own : ref.communityId = T) (env : Env)
    (unexpired : ∀ T, Unexpired s T) (T' : TeamId) :
    Unexpired (s.connect userId T socketId m ref env) T' := by
  have registered := wired.register userId socketId isTeam chain own
  unfold connect
  dsimp only
  by_cases here : T' = T
  · intro m' found
    subst here
    unfold clearExpiry at found
    split at found
    · next absent => exact absurd (absent.symm.trans found) (Option.some_ne_none m').symm
    · next m'' _ =>
      rw [setCommunity, JsMap.get?_set_self] at found
      cases found
      exact .inl rfl
  · have atRegister : Unexpired
        (s.register (s.newConnection userId T socketId m) m ref) T' := by
      apply (unexpired T').congr
      · exact JsMap.get?_set_of_ne _ _ here
      · intro none_ u
        rw [registered_register_of_ne wired own here]
        exact none_ u
    have atStart : Unexpired ((s.register (s.newConnection userId T socketId m) m
        ref).startConnection (s.newConnection userId T socketId m) env) T' := by
      unfold startConnection
      dsimp only
      split
      · exact unexpired_lfaDisconnected
          (registered.mono (setStatus_shrinks _ _ .JOINING (by decide))) _ _
          (atRegister.congr rfl id)
      · exact atRegister.congr rfl id
    apply atStart.congr
    · unfold clearExpiry
      split
      · rfl
      · exact JsMap.get?_set_of_ne _ _ here
    · intro none_ u
      rw [registered_clearExpiry]
      exact none_ u

theorem unexpired_startAuthSyncConnection {s s' : State Blob} (wired : Wired s) {userId : UserId}
    {T : TeamId} {socketId : SocketId} {env : Env} (unexpired : ∀ T, Unexpired s T)
    (started : s.startAuthSyncConnection userId T socketId env = some s') (T' : TeamId) :
    Unexpired s' T' := by
  obtain ⟨m, found, outcome⟩ := startAuthSyncConnection_outcome started
  have mapped := wired.mono (s.connectionMap_shrinks T m)
  have chain := (wired.chain T m found).trans_le (s.connectionMap_shrinks T m).next
  have own := wired.connectionMap_communityId found
  have mappedUnexpired (T' : TeamId) : Unexpired (s.connectionMap T m).1 T' := by
    apply (unexpired T').congr
    · unfold connectionMap
      split <;> rfl
    · intro none_ u
      rw [registered_connectionMap wired found]
      exact none_ u
  cases outcome with
  | fresh nobody =>
    exact unexpired_connect mapped userId T socketId (wired.keyed T m found) chain own env
      mappedUnexpired T'
  | reused existingConn isExisting reuses => exact mappedUnexpired T'
  | replaced existingConn isExisting notReused =>
    have stopped := stop_shrinks (s.connectionMap T m).1 existingConn env.closes env.now
    have emptied := stopped.trans (deleteConnection_shrinks _ (s.connectionMap T m).2 userId)
    apply unexpired_connect (mapped.mono emptied) userId T socketId (wired.keyed T m found)
      (chain.trans_le emptied.next) own env
    intro T'
    apply unexpired_deleteConnection
    exact unexpired_stop mapped existingConn env.closes env.now (mappedUnexpired T')

/-- A chain put into memory leaves the expiry as it was, or takes it off. -/
theorem unexpired_place {s : State Blob} (T : TeamId) (team : Team) (listens : Bool)
    {m : ManagedCommunity} (kept : m.expiryMs = none ∨ ∃ m', s.communities.get? T = some m' ∧
      m'.expiryMs = m.expiryMs ∧ m'.authConnections = m.authConnections)
    (unexpired : ∀ T, Unexpired s T) (T' : TeamId) :
    Unexpired ((s.newChain team listens).1.setCommunity T m) T' := by
  by_cases here : T' = T
  · subst here
    intro m'' found
    rw [setCommunity, JsMap.get?_set_self] at found
    cases found
    rcases kept with none_ | ⟨m', found, expiry, refs⟩
    · exact .inl none_
    · rw [← expiry]
      refine (unexpired T' m' found).imp_right ?_
      intro none_ u
      have := none_ u
      rw [registered_eq, mapOf, found, Option.bind_some, refs] at this
      rw [registered_eq, mapOf, setCommunity, JsMap.get?_set_self]
      exact this
  · exact (unexpired T').of_get? (JsMap.get?_set_of_ne _ _ here) rfl

theorem unexpired_sweepOne {s : State Blob} (keyed : Keyed s) (now : Int) (key : TeamId)
    (unexpired : ∀ T, Unexpired s T) (T : TeamId) : Unexpired (sweepOne now s key) T := by
  unfold sweepOne
  split
  · exact unexpired T
  · next m found =>
    rw [keyed key m found]
    split
    · exact unexpired T
    · split
      · by_cases here : T = key
        · intro m' found'
          rw [here, setCommunity, JsMap.get?_set_self] at found'
          cases found'
          exact .inl rfl
        · exact (unexpired T).of_get? (JsMap.get?_set_of_ne _ _ here) rfl
      · split
        · by_cases here : T = key
          · intro m' found'
            rw [here] at found'
            exact absurd ((JsMap.get?_delete_self _ _).symm.trans found')
              (Option.some_ne_none m').symm
          · exact (unexpired T).of_get? (JsMap.get?_delete_of_ne _ here) rfl
        · exact unexpired T

theorem unexpired_sweep {s : State Blob} (keyed : Keyed s) (now : Int)
    (unexpired : ∀ T, Unexpired s T) (T : TeamId) : Unexpired (s.sweep now) T := by
  unfold sweep
  generalize s.communities.keys = keys
  induction keys generalizing s with
  | nil => exact unexpired T
  | cons key keys ih =>
    exact ih (keyed.mono (sweepOne_shrinks keyed now key))
      (unexpired_sweepOne keyed now key unexpired)

theorem load_expiry (s : State Blob) (T : TeamId) (team : Team) :
    (s.load T team).2.expiryMs = none ∨ ∃ m', s.communities.get? T = some m' ∧
      m'.expiryMs = (s.load T team).2.expiryMs ∧
      m'.authConnections = (s.load T team).2.authConnections := by
  unfold load
  dsimp only [newChain]
  cases s.communities.get? T with
  | none => exact .inl rfl
  | some m' => exact .inr ⟨m', rfl, rfl, rfl⟩

/-! ## The chain of a create, and the sweep -/

theorem startAuthSyncConnection_none {s : State Blob} {userId : UserId} {T : TeamId}
    {socketId : SocketId} {env : Env}
    (refused : s.startAuthSyncConnection userId T socketId env = none) :
    s.communities.get? T = none := by
  unfold startAuthSyncConnection at refused
  split at refused
  · next absent => exact absent
  · dsimp only at refused
    split at refused
    · cases refused
    · split at refused
      · cases refused
      · cases refused

theorem clean_startAuthSyncConnection_getD {s : State Blob} (wired : Wired s) (userId : UserId)
    (T : TeamId) (socketId : SocketId) (env : Env) :
    Clean ((s.startAuthSyncConnection userId T socketId env).getD s) ↔
      Clean s ∧ s.StartsClean T userId socketId env := by
  cases started : s.startAuthSyncConnection userId T socketId env with
  | some s' => exact clean_startAuthSyncConnection wired started
  | none =>
    rw [Option.getD_none, and_iff_left]
    intro m found
    exact absurd ((startAuthSyncConnection_none started).symm.trans found)
      (Option.some_ne_none m).symm

theorem clean_finishCreate {s : State Blob} (wired : Wired s) (request : CreateRequest Blob)
    (team : Team) (env : Env) :
    Clean (s.finishCreate request team env) ↔
      Clean s ∧ (env.dies = true → s.DiesAlone request.teamId request.userId team.id) := by
  have found : (s.putCreated request.teamId team).communities.get? request.teamId =
      some { teamId := request.teamId, sigChain := (s.newChain team false).2 } :=
    JsMap.get?_set_self ..
  have nobody : (s.putCreated request.teamId team).registered request.teamId request.userId =
      none := by
    rw [registered, found]
    rfl
  have others (T : TeamId) (other : T ≠ request.teamId) (u : UserId) :
      (s.putCreated request.teamId team).registered T u = s.registered T u := by
    unfold registered putCreated setCommunity
    rw [JsMap.get?_set_of_ne _ _ other]
    rfl
  refine (clean_startAuthSyncConnection_getD (wired.putCreated _ _) _ _ _ _).trans ?_
  refine and_congr Iff.rfl ?_
  unfold StartsClean
  simp only [found, Option.some.injEq, forall_eq', nobody]
  unfold DiesAlone
  show (_ → team.id = request.teamId ∨ _) ↔ _
  by_cases here : team.id = request.teamId
  · simp only [here, true_or]
  · rw [show (s.newChain team false).2.teamId = team.id from rfl, others team.id here]

theorem clean_sweepOne (now : Int) (s : State Blob) (key : TeamId) :
    Clean (sweepOne now s key) ↔ Clean s := by
  unfold sweepOne
  split
  · exact Iff.rfl
  · next m _ =>
    split
    · exact Iff.rfl
    · split
      · exact Iff.rfl
      · split
        · apply clean_append [.dropped m.teamId] rfl
          intro c d mem
          cases List.mem_singleton.mp mem
        · exact Iff.rfl

theorem clean_sweep (s : State Blob) (now : Int) : Clean (s.sweep now) ↔ Clean s := by
  unfold sweep
  generalize s.communities.keys = keys
  induction keys generalizing s with
  | nil => exact Iff.rfl
  | cons key keys ih => exact (ih (sweepOne now s key)).trans (clean_sweepOne now s key)

theorem clean_receive (s : State Blob) (payload : LogEntrySyncPayload) (socketId : SocketId)
    (m : Option ManagedCommunity) : Clean (s.receive payload socketId m) ↔ Clean s := by
  obtain ⟨events, received, written⟩ := s.receive_eq payload socketId m
  rw [received]
  apply clean_append events rfl
  intro c d mem
  obtain ⟨c', status, peer, isEvent⟩ := written _ mem
  cases isEvent

end State

/-! ## Steps and runs -/

section
variable {lfa : Lfa Blob}

open State

/-- The actions in which a connection can end. -/
def Action.MayEnd : Action Blob → Prop
  | .resume _ _ | .created _ _ | .disconnected _ _ | .socketDisconnected _ _ _ => True
  | _ => False

theorem endsOwn_of_not_mayEnd {s : State Blob} {a : Action Blob} (idle : ¬ a.MayEnd) :
    EndsOwn s a where
  disconnected := fun _ _ isAction => by subst isAction; exact (idle trivial).elim
  socketDisconnected := fun _ _ _ isAction => by subst isAction; exact (idle trivial).elim
  signsIn := fun _ _ _ _ _ _ isAction => by subst isAction; exact (idle trivial).elim
  creates := fun _ _ _ _ isAction => by subst isAction; exact (idle trivial).elim

theorem endsOwn_of_plain {s : State Blob} {a : Action Blob} (plain : Plain lfa s a) :
    EndsOwn s a where
  disconnected := fun c now isAction => absurd isAction (plain.disconnected c now)
  socketDisconnected := fun c closes now isAction =>
    absurd isAction (plain.socketDisconnected c closes now)
  signsIn := fun k env T userId socketId m isAction waiting =>
    absurd waiting (plain.signsIn k env T userId socketId m isAction)
  creates := fun k env request team isAction waiting =>
    absurd waiting (plain.creates k env request team isAction)

/-! What is asked of each action in which a connection can end. -/

theorem endsOwn_disconnected {s : State Blob} {c : AuthConnection} {now : Int}
    (started : c ∈ s.started) : EndsOwn s (.disconnected c now) ↔ ¬ s.Superseded c := by
  constructor
  · intro own
    exact own.disconnected c now rfl started
  · intro own
    constructor
    case disconnected =>
      intro c' now' isAction _
      cases isAction
      exact own
    all_goals simp

theorem endsOwn_socketDisconnected {s : State Blob} {c : AuthConnection} {closes : Bool}
    {now : Int} (started : c ∈ s.started) :
    EndsOwn s (.socketDisconnected c closes now) ↔ ¬ s.Superseded c := by
  constructor
  · intro own
    exact own.socketDisconnected c closes now rfl started
  · intro own
    constructor
    case socketDisconnected =>
      intro c' closes' now' isAction _
      cases isAction
      exact own
    all_goals simp

theorem endsOwn_resume {s : State Blob} {k : TaskId} {env : Env} :
    EndsOwn s (.resume k env) ↔ ∀ T userId socketId m,
      s.tasks k = .resolved (.signIn T userId socketId) (some m) →
        s.StartsClean T userId socketId env := by
  constructor
  · intro own T userId socketId m
    exact own.signsIn k env T userId socketId m rfl
  · intro starts
    constructor
    case signsIn =>
      intro k' env' T userId socketId m isAction
      cases isAction
      exact starts T userId socketId m
    all_goals simp

theorem endsOwn_created {s : State Blob} {k : TaskId} {env : Env} :
    EndsOwn s (.created k env) ↔ ∀ request team, s.tasks k = .added request team true →
      env.dies = true → s.DiesAlone request.teamId request.userId team.id := by
  constructor
  · intro own request team
    exact own.creates k env request team rfl
  · intro dies
    constructor
    case creates =>
      intro k' env' request team isAction
      cases isAction
      exact dies request team
    all_goals simp

/-- An action that is not enabled ends nothing. -/
theorem endsOwn_of_none {s : State Blob} {a : Action Blob} (idle : step lfa s a = none) :
    EndsOwn s a where
  disconnected := by
    intro c now isAction started
    subst isAction
    rw [step, if_pos started] at idle
    cases idle
  socketDisconnected := by
    intro c closes now isAction started
    subst isAction
    rw [step, if_pos started] at idle
    cases idle
  signsIn := by
    intro k env T userId socketId m isAction waiting
    subst isAction
    rw [step, waiting] at idle
    cases idle
  creates := by
    intro k env request team isAction waiting
    subst isAction
    rw [step, waiting] at idle
    cases idle

/-- **One step** removes only the sessions that end, exactly if none that ends is superseded. -/
theorem clean_step {s s' : State Blob} {a : Action Blob} (wired : Wired s) (clean : Clean s)
    (taken : step lfa s a = some s') : Clean s' ↔ EndsOwn s a := by
  cases step_eq_some taken with
  | waits plain => exact iff_of_true clean (endsOwn_of_plain plain)
  | @loads k caller _ team waiting isTeam =>
    apply iff_of_true _ (endsOwn_of_not_mayEnd id)
    refine (clean_append [.loaded caller.teamId team.links] rfl ?_).mpr clean
    intro c d mem
    cases List.mem_singleton.mp mem
  | @receives k env payload socketId m waiting =>
    have received : Clean ((s.setTask k .idle).receive payload socketId m) :=
      (clean_receive (s.setTask k .idle) payload socketId m).mpr clean
    apply iff_of_true received
    apply endsOwn_resume.mpr
    intro T userId socketId' m' waiting'
    cases waiting.symm.trans waiting'
  | @signsIn k env T userId socketId m waiting =>
    have idle := wired.mono (s.idle_shrinks k)
    refine (clean_startAuthSyncConnection_getD idle userId T socketId env).trans ?_
    refine ((and_iff_right clean).trans ?_).trans endsOwn_resume.symm
    constructor
    · intro starts T' userId' socketId' m' waiting'
      cases waiting.symm.trans waiting'
      exact starts
    · intro starts
      exact starts T userId socketId m waiting
  | adds => exact iff_of_true clean (endsOwn_of_not_mayEnd id)
  | @creates k env request team waiting =>
    have idle := wired.mono (s.idle_shrinks k)
    refine (clean_finishCreate idle request team env).trans ?_
    refine ((and_iff_right clean).trans ?_).trans endsOwn_created.symm
    constructor
    · intro dies request' team' waiting'
      cases waiting.symm.trans waiting'
      exact dies
    · intro dies
      exact dies request team waiting
  | connected => exact iff_of_true clean (endsOwn_of_not_mayEnd id)
  | @disconnected c now started =>
    exact (clean_lfaDisconnected s c now).trans
      ((and_iff_right clean).trans (endsOwn_disconnected started).symm)
  | @updated c received started =>
    apply iff_of_true _ (endsOwn_of_not_mayEnd id)
    refine (clean_append [.reported c.communityId received] ?_ ?_).mpr clean
    · rw [update_eq]
    · intro c' d mem
      cases List.mem_singleton.mp mem
  | @socketDisconnected c closes now started =>
    exact (clean_stop wired c closes now).trans
      ((and_iff_right clean).trans (endsOwn_socketDisconnected started).symm)
  | writeCompleted => exact iff_of_true clean (endsOwn_of_not_mayEnd id)
  | sweep => exact iff_of_true ((clean_sweep s _).mpr clean) (endsOwn_of_not_mayEnd id)
  | restart =>
    apply iff_of_true _ (endsOwn_of_not_mayEnd id)
    refine (clean_append (s.communities.keys.map .dropped) rfl ?_).mpr clean
    intro c d mem
    obtain ⟨T, _, isEvent⟩ := List.mem_map.mp mem
    cases isEvent

/-- Every step keeps communities with a connection free of an expiry. -/
theorem unexpired_step {s s' : State Blob} {a : Action Blob} (wired : Wired s)
    (unexpired : ∀ T, Unexpired s T) (taken : step lfa s a = some s') (T : TeamId) :
    Unexpired s' T := by
  cases step_eq_some taken with
  | waits => exact (unexpired T).of_get? rfl rfl
  | @loads k caller _ team =>
    exact (unexpired_place caller.teamId team true (s.load_expiry _ _) unexpired T).of_get? rfl rfl
  | @receives k env payload socketId found _ =>
    obtain ⟨events, received, _⟩ := receive_eq (s.setTask k .idle) payload socketId found
    rw [received]
    exact (unexpired T).of_get? rfl rfl
  | @signsIn k env T' userId socketId =>
    have idle (T : TeamId) : Unexpired (s.setTask k .idle) T := (unexpired T).of_get? rfl rfl
    cases started : (s.setTask k .idle).startAuthSyncConnection userId T' socketId env with
    | none => exact idle T
    | some s' =>
      exact unexpired_startAuthSyncConnection (wired.mono (s.idle_shrinks k)) idle started T
  | adds => exact (unexpired T).of_get? rfl rfl
  | @creates k env request team =>
    have put (T : TeamId) : Unexpired ((s.setTask k .idle).putCreated request.teamId team) T :=
      unexpired_place request.teamId team false (.inl rfl)
        (fun T => (unexpired T).of_get? rfl rfl) T
    unfold finishCreate
    dsimp only
    cases started : ((s.setTask k .idle).putCreated request.teamId team).startAuthSyncConnection
        request.userId request.teamId request.socketId env with
    | none => exact put T
    | some s' =>
      have wiredPut := (wired.mono (s.idle_shrinks k)).putCreated request.teamId team
      exact unexpired_startAuthSyncConnection wiredPut put started T
  | connected => exact (unexpired T).of_get? rfl rfl
  | disconnected => exact unexpired_lfaDisconnected wired _ _ (unexpired T)
  | updated =>
    rw [update_eq]
    exact (unexpired T).of_get? rfl rfl
  | socketDisconnected => exact unexpired_stop wired _ _ _ (unexpired T)
  | writeCompleted => exact (unexpired T).of_get? rfl rfl
  | sweep => exact unexpired_sweep wired.keyed _ unexpired T
  | restart =>
    intro m found
    cases found

end

/-- **A disconnect only removes the session that ended, exactly when** no connection ends while
another one is registered in its place: for every table of communities and every run. -/
theorem sessions_kept_iff (lfa : Lfa Blob) (stored : TeamId → Option Blob)
    (as : List (Action Blob)) :
    Throughout (step lfa) State.SessionsKept (.start stored) as ↔
      Along (step lfa) State.EndsOwn (.start stored) as := by
  apply throughout_iff_along (I := State.Wired)
  · intro s a s' wired taken
    exact wired_step wired taken
  · intro s a s' wired kept taken
    constructor
    · intro after
      exact (clean_step wired kept.clean taken).mp after.clean
    · intro own
      exact ⟨(clean_step wired kept.clean taken).mpr own,
        unexpired_step wired kept.unexpired taken⟩
  · intro s a _ idle
    exact endsOwn_of_none idle
  · exact .start stored
  · exact ⟨fun _ _ mem => absurd mem List.not_mem_nil, fun T m found => by cases found⟩

/-! ## A late disconnect of an old socket -/

/-- The connection of a member on the socket it signed in on first, and on the next one. -/
def onSocket (id : Nat) (socketId : SocketId) : AuthConnection where
  id := id
  userId := "alice"
  communityId := "team"
  sigChain := { id := 0, teamId := "team", listens := true }
  socketId := socketId

/-- A member signs in on one socket and is joined, signs in again on another, and then the first
socket disconnects. -/
def lateDisconnect : List (Action Team) :=
  let env : State.Env := { closes := true, dies := false, now := 0 }
  [.get 0 (.signIn "team" "alice" "socket-1") false, .communityRead 0 true, .keysRetrieved 0 true,
    .resume 0 env, .connected (onSocket 2 "socket-1") "alice",
    .get 0 (.signIn "team" "alice" "socket-2") false, .resume 0 env,
    .socketDisconnected (onSocket 2 "socket-1") true 1]

/-- The disconnect of the first socket removes the connection on the second. -/
theorem reconnected_session_removed :
    ¬ Throughout (step (.plain fun _ => ["alice"])) State.SessionsKept
      (.start fun _ => some { id := "team", links := ∅ }) lateDisconnect := by
  intro throughout
  have kept := throughout.of_run rfl
  have same := kept.clean (onSocket 2 "socket-1") (onSocket 3 "socket-2") (by decide)
  exact absurd same (by decide)

end QuietStorage.Communities
