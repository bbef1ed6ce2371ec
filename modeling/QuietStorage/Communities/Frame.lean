import QuietStorage.Communities.Manager

/-!
# Communities.Frame — what each operation of the manager can change

The operations on the map of communities come in two kinds. Most only take away: a connection ends,
an expiry is set or removed, a community leaves the memory, a task returns to idle. `Shrinks` says
that a state has nothing new in this sense, and `authDisconnected_shrinks` up to `restart_shrinks`
that these operations are of that kind. The few others bring something in: a registered connection
(`register`), a chain in memory (`load`, `finishCreate`), a joined status (`connected`), links
(`updated`) or a row. `receive_eq` and `update_eq` say what a message and an update change.

An invariant is then a fact about what shrinks, and one about each of the others.
-/

set_option autoImplicit false

namespace QuietStorage.Communities

open Lib Sync

variable {Blob : Type}

/-- A community as it is but for its expiry. -/
def ManagedCommunity.core (m : ManagedCommunity) : ManagedCommunity := { m with expiryMs := none }

theorem ManagedCommunity.of_core {m m' : ManagedCommunity} (same : m'.core = m.core) :
    m'.teamId = m.teamId ∧ m'.sigChain = m.sigChain ∧ m'.authConnections = m.authConnections := by
  injection same with teamId sigChain authConnections _
  exact ⟨teamId, sigChain, authConnections⟩

/-- The events of operations that only take away. -/
def Event.Ends : Event → Prop
  | .authDisconnected _ _ | .dropped _ => True
  | _ => False

/-- `s'` has nothing that `s` has not: no community, no connection in a map, no joined status, no
link and no task; and it reports only ends. -/
structure Shrinks (s s' : State Blob) : Prop where
  communities : ∀ T m', s'.communities.get? T = some m' →
    ∃ m, s.communities.get? T = some m ∧ m'.core = m.core
  authConnections : ∀ ref u c, (s'.authConnections ref).get? u = some c →
    (s.authConnections ref).get? u = some c
  links : s'.links = s.links
  started : s'.started ⊆ s.started
  joined : ∀ c, s'.status c = .JOINED → s.status c = .JOINED
  peer : s'.peer = s.peer
  closed : ∀ c, s.closed c = true → s'.closed c = true
  next : s.next ≤ s'.next
  tasks : ∀ k, s'.tasks k = s.tasks k ∨ s'.tasks k = .idle
  stored : s'.stored = s.stored
  writes : s'.writes = s.writes
  trace : ∃ events, s'.trace = s.trace ++ events ∧ ∀ e ∈ events, e.Ends

/-- Two extensions of a trace by ends are one. -/
theorem appended_trans {before between after : List Event}
    (first : ∃ events, between = before ++ events ∧ ∀ e ∈ events, e.Ends)
    (second : ∃ events, after = between ++ events ∧ ∀ e ∈ events, e.Ends) :
    ∃ events, after = before ++ events ∧ ∀ e ∈ events, e.Ends := by
  obtain ⟨events, rfl, ends⟩ := first
  obtain ⟨events', rfl, ends'⟩ := second
  refine ⟨events ++ events', List.append_assoc _ _ _, ?_⟩
  intro e mem
  exact (List.mem_append.mp mem).elim (ends e) (ends' e)

namespace Shrinks

theorem refl (s : State Blob) : Shrinks s s where
  communities := fun _ m found => ⟨m, found, rfl⟩
  authConnections := fun _ _ _ found => found
  links := rfl
  started := List.Subset.refl _
  joined := fun _ joined => joined
  peer := rfl
  closed := fun _ closed => closed
  next := Nat.le_refl _
  tasks := fun _ => .inl rfl
  stored := rfl
  writes := rfl
  trace := ⟨[], (List.append_nil _).symm, fun _ mem => absurd mem List.not_mem_nil⟩

theorem trans {s m s' : State Blob} (first : Shrinks s m) (second : Shrinks m s') :
    Shrinks s s' where
  communities := by
    intro T m' found
    obtain ⟨between, found, core⟩ := second.communities T m' found
    obtain ⟨before, found, core'⟩ := first.communities T between found
    exact ⟨before, found, core.trans core'⟩
  authConnections := fun ref u c found =>
    first.authConnections ref u c (second.authConnections ref u c found)
  links := second.links.trans first.links
  started := List.Subset.trans second.started first.started
  joined := fun c joined => first.joined c (second.joined c joined)
  peer := second.peer.trans first.peer
  closed := fun c closed => second.closed c (first.closed c closed)
  next := first.next.trans second.next
  tasks := by
    intro k
    rcases second.tasks k with same | idle
    · rw [same]
      exact first.tasks k
    · exact .inr idle
  stored := second.stored.trans first.stored
  writes := second.writes.trans first.writes
  trace := appended_trans first.trace second.trace

end Shrinks

/-! ## The operations that take away -/

namespace State

theorem mem_of_get?_delete {s : State Blob} {ref r : MapRef} {u v : UserId} {c : AuthConnection}
    (found : ((s.deleteConnection ref u).authConnections r).get? v = some c) :
    (s.authConnections r).get? v = some c := by
  simp only [deleteConnection, Function.update_apply] at found
  split at found
  · next same =>
    subst same
    exact JsMap.get?_of_get?_delete found
  · exact found

theorem deleteConnection_shrinks (s : State Blob) (ref : MapRef) (u : UserId) :
    Shrinks s (s.deleteConnection ref u) :=
  { Shrinks.refl s with authConnections := fun _ _ _ found => mem_of_get?_delete found }

/-- Setting or removing the expiry of a community that is in memory. -/
theorem setExpiry_shrinks {s : State Blob} {T : TeamId} {m m' : ManagedCommunity}
    (found : s.communities.get? T = some m) (core : m'.core = m.core) :
    Shrinks s (s.setCommunity T m') :=
  { Shrinks.refl s with
    communities := by
      intro T' after here
      simp only [setCommunity, JsMap.get?_set] at here
      split at here
      · next same =>
        cases here
        exact ⟨m, same ▸ found, core⟩
      · exact ⟨after, here, rfl⟩ }

theorem record_shrinks (s : State Blob) (event : Event) (ends : event.Ends) :
    Shrinks s (s.record event) :=
  { Shrinks.refl s with
    trace := ⟨[event], rfl, fun _ mem => List.mem_singleton.mp mem ▸ ends⟩ }

theorem removeConnection_shrinks (s : State Blob) (m : ManagedCommunity) (u : UserId) :
    Shrinks s (s.removeConnection m u) := by
  unfold removeConnection
  split
  · exact .refl s
  · exact s.deleteConnection_shrinks _ u

@[simp] theorem removeConnection_communities (s : State Blob) (m : ManagedCommunity)
    (u : UserId) : (s.removeConnection m u).communities = s.communities := by
  unfold removeConnection
  split <;> rfl

theorem expireUnused_shrinks {s : State Blob} {T : TeamId} {m : ManagedCommunity} (now : Int)
    (found : s.communities.get? T = some m) : Shrinks s (s.expireUnused T m now) := by
  unfold expireUnused
  split
  · exact setExpiry_shrinks found rfl
  · exact .refl s

theorem authDisconnected_shrinks (s : State Blob) (c : AuthConnection) (now : Int) :
    Shrinks s (s.authDisconnected c now) := by
  have recorded : Shrinks s
      (s.record (.authDisconnected c (s.registered c.sigChain.teamId c.userId))) :=
    s.record_shrinks _ trivial
  unfold authDisconnected
  apply recorded.trans
  dsimp only
  split
  · exact .refl _
  · next m found =>
    apply (removeConnection_shrinks _ m c.userId).trans
    apply expireUnused_shrinks
    rw [removeConnection_communities]
    exact found

theorem setStatus_shrinks (s : State Blob) (c : AuthConnection) (status : AuthStatus)
    (unjoined : status ≠ .JOINED) : Shrinks s (s.setStatus c status) :=
  { Shrinks.refl s with
    joined := by
      intro c' joined
      simp only [setStatus, Function.update_apply] at joined
      split at joined
      · exact absurd joined unjoined
      · exact joined }

theorem close_shrinks (s : State Blob) (c : AuthConnection) : Shrinks s (s.close c) :=
  { Shrinks.refl s with
    closed := by
      intro c' closed
      simp only [close, Function.update_apply]
      split
      · rfl
      · exact closed }

theorem lfaDisconnected_shrinks (s : State Blob) (c : AuthConnection) (now : Int) :
    Shrinks s (s.lfaDisconnected c now) := by
  unfold lfaDisconnected
  apply (s.close_shrinks c).trans
  apply (setStatus_shrinks _ c .REJECTED_OR_CLOSED (by decide)).trans
  exact authDisconnected_shrinks _ c now

theorem stop_shrinks (s : State Blob) (c : AuthConnection) (closes : Bool) (now : Int) :
    Shrinks s (s.stop c closes now) := by
  have lfa : Shrinks s (if closes then s.lfaDisconnected c now else s) := by
    split
    · exact s.lfaDisconnected_shrinks c now
    · exact .refl s
  unfold stop
  apply lfa.trans
  apply (close_shrinks _ c).trans
  exact authDisconnected_shrinks _ c now

theorem startConnection_shrinks (s : State Blob) (c : AuthConnection) (env : Env) :
    Shrinks s (s.startConnection c env) := by
  unfold startConnection
  apply (s.setStatus_shrinks c .JOINING (by decide)).trans
  dsimp only
  split
  · exact lfaDisconnected_shrinks _ c env.now
  · exact .refl _

theorem clearExpiry_shrinks (s : State Blob) (T : TeamId) : Shrinks s (s.clearExpiry T) := by
  unfold clearExpiry
  split
  · exact .refl s
  · next m found => exact setExpiry_shrinks found rfl

theorem connectionMap_shrinks (s : State Blob) (T : TeamId) (m : ManagedCommunity) :
    Shrinks s (s.connectionMap T m).1 := by
  unfold connectionMap
  split
  · exact .refl s
  · exact { Shrinks.refl s with
      authConnections := by
        intro ref u c found
        simp only [Function.update_apply] at found
        split at found
        · cases found
        · exact found
      next := Nat.le_succ _ }

theorem idle_shrinks (s : State Blob) (k : TaskId) : Shrinks s (s.setTask k .idle) :=
  { Shrinks.refl s with
    tasks := by
      intro k'
      simp only [setTask, Function.update_apply]
      split
      · exact .inr rfl
      · exact .inl rfl }

/-- Every community is kept under its own team id. -/
def Keyed (s : State Blob) : Prop := ∀ T m, s.communities.get? T = some m → m.teamId = T

theorem Keyed.mono {s s' : State Blob} (keyed : Keyed s) (shrinks : Shrinks s s') : Keyed s' := by
  intro T m' found
  obtain ⟨m, before, core⟩ := shrinks.communities T m' found
  exact (ManagedCommunity.of_core core).1.trans (keyed T m before)

/-- The sweep takes a community off the map, or its expiry off it. -/
theorem sweepOne_shrinks {s : State Blob} (keyed : Keyed s) (now : Int) (T : TeamId) :
    Shrinks s (sweepOne now s T) := by
  unfold sweepOne
  split
  · exact .refl s
  · next m found =>
    have own : s.communities.get? m.teamId = some m := by rw [keyed T m found, found]
    split
    · exact .refl s
    · split
      · exact setExpiry_shrinks own rfl
      · split
        · apply Shrinks.trans _ (record_shrinks _ (.dropped m.teamId) trivial)
          exact { Shrinks.refl s with
            communities := fun T' m' left => ⟨m', JsMap.get?_of_get?_delete left, rfl⟩ }
        · exact .refl s

theorem sweep_shrinks {s : State Blob} (keyed : Keyed s) (now : Int) :
    Shrinks s (s.sweep now) := by
  unfold sweep
  generalize s.communities.keys = keys
  induction keys generalizing s with
  | nil => exact .refl s
  | cons T keys ih =>
    have first := sweepOne_shrinks keyed now T
    exact first.trans (ih (keyed.mono first))

theorem restart_shrinks (s : State Blob) : Shrinks s s.restart :=
  { Shrinks.refl s with
    communities := fun _ _ found => by cases found
    started := List.nil_subset _
    tasks := fun _ => .inr rfl
    trace := by
      refine ⟨_, rfl, ?_⟩
      intro e mem
      obtain ⟨T, _, rfl⟩ := List.mem_map.mp mem
      trivial }

/-! ## What the end of a connection leaves alone -/

/-- The same communities are in memory, but for their expiry. -/
def SameCommunities (s s' : State Blob) : Prop :=
  ∀ T, (s'.communities.get? T).map (·.core) = (s.communities.get? T).map (·.core)

theorem SameCommunities.trans {s m s' : State Blob} (first : SameCommunities s m)
    (second : SameCommunities m s') : SameCommunities s s' :=
  fun T => (second T).trans (first T)

theorem SameCommunities.get? {s s' : State Blob} (same : SameCommunities s s') {T : TeamId}
    {m : ManagedCommunity} (found : s.communities.get? T = some m) :
    ∃ m', s'.communities.get? T = some m' ∧ m'.core = m.core := by
  have := same T
  rw [found, Option.map_some] at this
  exact Option.map_eq_some_iff.mp this

theorem setExpiry_same {s : State Blob} {T : TeamId} {m m' : ManagedCommunity}
    (found : s.communities.get? T = some m) (core : m'.core = m.core) :
    SameCommunities s (s.setCommunity T m') := by
  intro T'
  simp only [setCommunity, JsMap.get?_set]
  split
  · next same => rw [same, found, Option.map_some, Option.map_some, core]
  · rfl

theorem authDisconnected_same (s : State Blob) (c : AuthConnection) (now : Int) :
    SameCommunities s (s.authDisconnected c now) := by
  unfold authDisconnected
  dsimp only
  split
  · exact fun _ => rfl
  · next m found =>
    unfold expireUnused
    split
    · intro T
      simp only [setCommunity, removeConnection_communities, JsMap.get?_set]
      split
      · next same =>
        have found : s.communities.get? c.sigChain.teamId = some m := found
        rw [same, found]
        rfl
      · rfl
    · intro T
      rw [removeConnection_communities]
      rfl

theorem clearExpiry_same (s : State Blob) (T : TeamId) : SameCommunities s (s.clearExpiry T) := by
  unfold clearExpiry
  split
  · exact fun _ => rfl
  · next m found => exact setExpiry_same found rfl

theorem startConnection_same (s : State Blob) (c : AuthConnection) (env : Env) :
    SameCommunities s (s.startConnection c env) := by
  unfold startConnection
  dsimp only
  split
  · exact authDisconnected_same _ c env.now
  · exact fun _ => rfl

theorem stop_same (s : State Blob) (c : AuthConnection) (closes : Bool) (now : Int) :
    SameCommunities s (s.stop c closes now) := by
  have lfa : SameCommunities s (if closes then s.lfaDisconnected c now else s) := by
    split
    · exact authDisconnected_same _ c now
    · exact fun _ => rfl
  exact lfa.trans (authDisconnected_same _ c now)

theorem removeConnection_eq (s : State Blob) (m : ManagedCommunity) (u : UserId) :
    s.removeConnection m u =
      { s with authConnections := (s.removeConnection m u).authConnections } := by
  unfold removeConnection
  split <;> rfl

theorem expireUnused_eq (s : State Blob) (T : TeamId) (m : ManagedCommunity) (now : Int) :
    s.expireUnused T m now = { s with communities := (s.expireUnused T m now).communities } := by
  unfold expireUnused
  split <;> rfl

/-- The end of a connection changes the communities, the maps and the trace. -/
theorem authDisconnected_eq (s : State Blob) (c : AuthConnection) (now : Int) :
    s.authDisconnected c now = { s with
      communities := (s.authDisconnected c now).communities
      authConnections := (s.authDisconnected c now).authConnections
      trace := s.trace ++
        [.authDisconnected c (s.registered c.sigChain.teamId c.userId)] } := by
  unfold authDisconnected
  dsimp only
  split
  · rfl
  · rw [expireUnused_eq, removeConnection_eq]
    rfl

@[simp] theorem authDisconnected_started (s : State Blob) (c : AuthConnection) (now : Int) :
    (s.authDisconnected c now).started = s.started := by
  rw [authDisconnected_eq]

@[simp] theorem authDisconnected_closed (s : State Blob) (c : AuthConnection) (now : Int) :
    (s.authDisconnected c now).closed = s.closed := by
  rw [authDisconnected_eq]

@[simp] theorem authDisconnected_trace (s : State Blob) (c : AuthConnection) (now : Int) :
    (s.authDisconnected c now).trace =
      s.trace ++ [.authDisconnected c (s.registered c.sigChain.teamId c.userId)] := by
  rw [authDisconnected_eq]

@[simp] theorem clearExpiry_started (s : State Blob) (T : TeamId) :
    (s.clearExpiry T).started = s.started := by
  unfold clearExpiry
  split <;> rfl

@[simp] theorem clearExpiry_closed (s : State Blob) (T : TeamId) :
    (s.clearExpiry T).closed = s.closed := by
  unfold clearExpiry
  split <;> rfl

@[simp] theorem startConnection_started (s : State Blob) (c : AuthConnection) (env : Env) :
    (s.startConnection c env).started = s.started := by
  unfold startConnection lfaDisconnected
  dsimp only
  split
  · rw [authDisconnected_started]
    rfl
  · rfl

/-- Starting a connection closes no other. -/
theorem startConnection_closed (s : State Blob) {c d : AuthConnection} (env : Env) (other : d ≠ c) :
    (s.startConnection c env).closed d = s.closed d := by
  unfold startConnection lfaDisconnected
  dsimp only
  split
  · rw [authDisconnected_closed]
    exact Function.update_of_ne other _ _
  · rfl

/-! ## Starting a connection -/

/-- `startAuthSyncConnection` has started a connection: what it ends comes before the registration,
and what ends the new connection after it. -/
def Starts (s : State Blob) (userId : UserId) (teamId : TeamId) (socketId : SocketId)
    (s' : State Blob) : Prop :=
  ∃ m ref between, s.communities.get? teamId = some m ∧
    (m.authConnections = some ref ∨
      ref.communityId = teamId ∧ ∀ u, (between.authConnections ref).get? u = none) ∧
    Shrinks s between ∧
    Shrinks (between.register (between.newConnection userId teamId socketId m) m ref) s'

theorem connect_shrinks (s : State Blob) (userId : UserId) (teamId : TeamId)
    (socketId : SocketId) (m : ManagedCommunity) (ref : MapRef) (env : Env) :
    Shrinks (s.register (s.newConnection userId teamId socketId m) m ref)
      (s.connect userId teamId socketId m ref env) := by
  unfold connect
  dsimp only
  apply (startConnection_shrinks _ _ env).trans
  exact clearExpiry_shrinks _ teamId

/-- The new connection leaves the ones there are started and open, and the community on its
chain. -/
theorem connect_keeps (s : State Blob) (userId : UserId) (teamId : TeamId) (socketId : SocketId)
    (m : ManagedCommunity) (ref : MapRef) (env : Env) :
    (∀ c ∈ s.started, c ∈ (s.connect userId teamId socketId m ref env).started) ∧
      (∀ c, c.id < s.next →
        (s.connect userId teamId socketId m ref env).closed c = s.closed c) ∧
      ∃ m', (s.connect userId teamId socketId m ref env).communities.get? teamId = some m' ∧
        m'.sigChain = m.sigChain := by
  unfold connect
  refine ⟨?_, ?_, ?_⟩
  · intro c mem
    rw [clearExpiry_started, startConnection_started]
    exact List.mem_append_left _ mem
  · intro c low
    have other : c ≠ s.newConnection userId teamId socketId m := by
      intro same
      rw [same] at low
      exact Nat.lt_irrefl _ low
    rw [clearExpiry_closed, startConnection_closed _ env other]
    exact Function.update_of_ne other _ _
  · have same := (startConnection_same (s.register (s.newConnection userId teamId socketId m) m ref)
      (s.newConnection userId teamId socketId m) env).trans (clearExpiry_same _ teamId)
    obtain ⟨m', found, core⟩ := same.get?
      (show (s.communities.set teamId _).get? teamId = some _ from JsMap.get?_set_self ..)
    exact ⟨m', found, (ManagedCommunity.of_core core).2.1⟩

/-- The map that the connection is put into is the community's, or a new one of its own. -/
theorem connectionMap_ref (s : State Blob) (T : TeamId) (m : ManagedCommunity) :
    m.authConnections = some (s.connectionMap T m).2 ∨
      (s.connectionMap T m).2.communityId = T ∧
        ∀ u, ((s.connectionMap T m).1.authConnections (s.connectionMap T m).2).get? u = none := by
  unfold connectionMap
  split
  · next ref isRef => exact .inl isRef
  · refine .inr ⟨rfl, fun u => ?_⟩
    show (Function.update s.authConnections _ JsMap.empty _).get? u = none
    rw [Function.update_self]
    rfl

/-- Who is found in the map that `startAuthSyncConnection` looks into is who is registered. -/
theorem connectionMap_get? {s : State Blob} {T : TeamId} {m : ManagedCommunity}
    (found : s.communities.get? T = some m) (u : UserId) :
    ((s.connectionMap T m).1.authConnections (s.connectionMap T m).2).get? u =
      s.registered T u := by
  rw [registered, found, Option.bind_some, connectionOf]
  unfold connectionMap
  cases m.authConnections with
  | some ref => rfl
  | none =>
    show (Function.update s.authConnections _ JsMap.empty _).get? u = none
    rw [Function.update_self]
    rfl

theorem connectionMap_reuses (s : State Blob) (T : TeamId) (m : ManagedCommunity)
    (c : AuthConnection) (socketId : SocketId) :
    (s.connectionMap T m).1.reuses c socketId = s.reuses c socketId := by
  unfold connectionMap
  split <;> rfl

/-- What `startAuthSyncConnection` makes of the community `m`: a connection for a user who has none, the
one that is there again, or a new one in its place. -/
inductive StartOutcome (s : State Blob) (userId : UserId) (T : TeamId) (socketId : SocketId) (env : Env)
    (m : ManagedCommunity) : State Blob → Prop where
  | fresh (nobody : s.registered T userId = none) :
    StartOutcome s userId T socketId env m
      ((s.connectionMap T m).1.connect userId T socketId m (s.connectionMap T m).2 env)
  | reused (existingConn : AuthConnection) (isExisting : s.registered T userId = some existingConn)
    (reuses : s.reuses existingConn socketId = true) :
    StartOutcome s userId T socketId env m (s.connectionMap T m).1
  | replaced (existingConn : AuthConnection) (isExisting : s.registered T userId = some existingConn)
    (notReused : s.reuses existingConn socketId = false) :
    StartOutcome s userId T socketId env m
      ((((s.connectionMap T m).1.stop existingConn env.closes env.now).deleteConnection
        (s.connectionMap T m).2 userId).connect userId T socketId m (s.connectionMap T m).2 env)

theorem startAuthSyncConnection_outcome {s s' : State Blob} {userId : UserId} {T : TeamId}
    {socketId : SocketId} {env : Env}
    (started : s.startAuthSyncConnection userId T socketId env = some s') :
    ∃ m, s.communities.get? T = some m ∧ s.StartOutcome userId T socketId env m s' := by
  unfold startAuthSyncConnection at started
  split at started
  · cases started
  · next m found =>
    refine ⟨m, found, ?_⟩
    dsimp only at started
    rw [connectionMap_get? found] at started
    cases isExisting : s.registered T userId with
    | none =>
      rw [isExisting] at started
      cases started
      exact .fresh isExisting
    | some existingConn =>
      rw [isExisting] at started
      dsimp only at started
      rw [connectionMap_reuses] at started
      split at started
      · next reuses =>
        cases started
        exact .reused existingConn isExisting reuses
      · next notReused =>
        cases started
        exact .replaced existingConn isExisting (Bool.eq_false_of_not_eq_true notReused)

theorem startAuthSyncConnection_cases {s s' : State Blob} {userId : UserId} {teamId : TeamId}
    {socketId : SocketId} {env : Env}
    (started : s.startAuthSyncConnection userId teamId socketId env = some s') :
    Shrinks s s' ∨ s.Starts userId teamId socketId s' := by
  obtain ⟨m, found, outcome⟩ := startAuthSyncConnection_outcome started
  have mapped := s.connectionMap_shrinks teamId m
  have isRef := s.connectionMap_ref teamId m
  cases outcome with
  | fresh nobody =>
    exact .inr ⟨m, _, _, found, isRef, mapped, connect_shrinks _ _ _ _ _ _ _⟩
  | reused existingConn isExisting reuses => exact .inl mapped
  | replaced existingConn isExisting notReused =>
    have stopped := stop_shrinks (s.connectionMap teamId m).1 existingConn env.closes env.now
    have deleted := deleteConnection_shrinks
      ((s.connectionMap teamId m).1.stop existingConn env.closes env.now)
      (s.connectionMap teamId m).2 userId
    have emptied := stopped.trans deleted
    refine .inr ⟨m, _, _, found, ?_, mapped.trans emptied, connect_shrinks _ _ _ _ _ _ _⟩
    refine isRef.imp_right fun ⟨own, empty⟩ => ⟨own, fun u => ?_⟩
    apply Option.eq_none_iff_forall_ne_some.mpr
    intro c left
    have was := emptied.authConnections _ u c left
    rw [empty u] at was
    cases was

/-- A community without a map has no connection to use again or to replace. -/
theorem startAuthSyncConnection_of_no_map {s : State Blob} {teamId : TeamId}
    {m : ManagedCommunity} (found : s.communities.get? teamId = some m)
    (noMap : m.authConnections = none) (userId : UserId) (socketId : SocketId) (env : Env) :
    s.startAuthSyncConnection userId teamId socketId env =
      some ((s.connectionMap teamId m).1.connect userId teamId socketId m
        (s.connectionMap teamId m).2 env) := by
  have empty : ((s.connectionMap teamId m).1.authConnections (s.connectionMap teamId m).2).get?
      userId = none := by
    rcases s.connectionMap_ref teamId m with isRef | own
    · rw [noMap] at isRef
      cases isRef
    · exact own.2 userId
  unfold startAuthSyncConnection
  rw [found]
  dsimp only
  rw [empty]

/-- A sign-in, or `create` at its end, starts a connection or only takes away. -/
theorem startAuthSyncConnection_getD (s : State Blob) (userId : UserId) (teamId : TeamId)
    (socketId : SocketId) (env : Env) :
    Shrinks s ((s.startAuthSyncConnection userId teamId socketId env).getD s) ∨
      s.Starts userId teamId socketId
        ((s.startAuthSyncConnection userId teamId socketId env).getD s) := by
  cases started : s.startAuthSyncConnection userId teamId socketId env with
  | none => exact .inl (.refl s)
  | some s' => exact startAuthSyncConnection_cases started

/-! ## What a message and an update change -/

/-- A message that passes its checks is recorded, and nothing else changes. -/
theorem receive_eq (s : State Blob) (payload : LogEntrySyncPayload) (socketId : SocketId)
    (m : Option ManagedCommunity) : ∃ events,
      s.receive payload socketId m = { s with trace := s.trace ++ events } ∧
        ∀ e ∈ events, ∃ c status peer, e = .written payload socketId c status peer := by
  have unrecorded : s = { s with trace := s.trace ++ [] } := by rw [List.append_nil]
  unfold receive
  split
  · exact ⟨[], unrecorded, fun _ mem => absurd mem List.not_mem_nil⟩
  · split
    · exact ⟨[], unrecorded, fun _ mem => absurd mem List.not_mem_nil⟩
    · next c _ =>
      refine ⟨[.written payload socketId c (s.status c) (s.peer c)], rfl, ?_⟩
      intro e mem
      exact ⟨c, _, _, List.mem_singleton.mp mem⟩


/-- What a chain's listener writes. -/
def listenerWrite (lfa : Lfa Blob) (s : State Blob) (c : AuthConnection)
    (received : Finset Link) : TeamId × Blob :=
  (c.sigChain.teamId, lfa.save ⟨c.sigChain.teamId, s.links c.sigChain ∪ received⟩)

/-- An update changes the links of its chain, the trace and the writes. -/
theorem update_eq (lfa : Lfa Blob) (s : State Blob) (c : AuthConnection)
    (received : Finset Link) :
    s.update lfa c received = { s with
      links := Function.update s.links c.sigChain (s.links c.sigChain ∪ received)
      trace := s.trace ++ [.reported c.communityId received]
      writes := if c.sigChain.listens then s.writes ++ [listenerWrite lfa s c received]
        else s.writes } := by
  unfold update listenerWrite team
  dsimp only
  split
  · simp only [record, Function.update_self]
  · rfl

/-! ## What neither an end nor a start changes -/

/-- Nothing is joined anew, and the chains, the table, its writes and what was reported, loaded and
written are as before. -/
structure Calm (s s' : State Blob) : Prop where
  joined : ∀ c, s'.status c = .JOINED → s.status c = .JOINED ∧ s'.peer c = s.peer c
  links : s'.links = s.links
  stored : s'.stored = s.stored
  writes : s'.writes = s.writes
  trace : ∃ events, s'.trace = s.trace ++ events ∧ ∀ e ∈ events, e.Ends

theorem Calm.of_shrinks {s s' : State Blob} (shrinks : Shrinks s s') : Calm s s' where
  joined := fun c joined => ⟨shrinks.joined c joined, congrFun shrinks.peer c⟩
  links := shrinks.links
  stored := shrinks.stored
  writes := shrinks.writes
  trace := shrinks.trace

theorem Calm.trans {s m s' : State Blob} (first : Calm s m) (second : Calm m s') : Calm s s' where
  joined := by
    intro c joined
    obtain ⟨joined, peer⟩ := second.joined c joined
    obtain ⟨joined, peer'⟩ := first.joined c joined
    exact ⟨joined, peer.trans peer'⟩
  links := second.links.trans first.links
  stored := second.stored.trans first.stored
  writes := second.writes.trans first.writes
  trace := appended_trans first.trace second.trace

/-- A new connection is not joined. -/
theorem register_calm (s : State Blob) (c : AuthConnection) (m : ManagedCommunity) (ref : MapRef) :
    Calm s (s.register c m ref) where
  joined := by
    intro c' joined
    simp only [register, Function.update_apply] at joined ⊢
    split at joined
    · cases joined
    · next other => exact ⟨joined, if_neg other⟩
  links := rfl
  stored := rfl
  writes := rfl
  trace := ⟨[], (List.append_nil _).symm, fun _ mem => absurd mem List.not_mem_nil⟩

theorem startAuthSyncConnection_calm (s : State Blob) (userId : UserId) (teamId : TeamId)
    (socketId : SocketId) (env : Env) :
    Calm s ((s.startAuthSyncConnection userId teamId socketId env).getD s) := by
  rcases s.startAuthSyncConnection_getD userId teamId socketId env with shrinks | starts
  · exact .of_shrinks shrinks
  · obtain ⟨m, ref, between, _, _, before, after⟩ := starts
    exact ((Calm.of_shrinks before).trans (register_calm _ _ m ref)).trans (.of_shrinks after)

/-- The events of other kinds are those that were there. -/
theorem Calm.mem_trace {s s' : State Blob} (calm : Calm s s') {e : Event} (kept : ¬ e.Ends) :
    e ∈ s'.trace ↔ e ∈ s.trace := by
  obtain ⟨events, isTrace, ends⟩ := calm.trace
  rw [isTrace, List.mem_append]
  exact or_iff_left fun mem => kept (ends e mem)

end State

end QuietStorage.Communities
