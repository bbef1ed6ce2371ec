import QuietStorage.Communities.Wiring

/-!
# Communities.OneChain — one chain in memory for a team

`OneChain` says that every auth connection of a community, registered in its map or still open, was
built on the chain that the cached community holds, and that two open connections of one community
were built on the same chain. What ends connections keeps it, and so does starting one, which takes
the cached chain. The two places that put a chain into memory do not look at the connections that
are there: `_processCommunityToManagedCommunity` replaces the chain and keeps the map, `create`
replaces the whole entry. `one_chain_iff` is exact: in a run, `OneChain` holds throughout if and only
if each chain is put into memory when its community has no connection.
-/

set_option autoImplicit false

namespace QuietStorage.Communities

open Lib Sync

variable {Blob : Type}

namespace State

/-! ## The property and its condition -/

/-- The connection was started and neither stopped nor closed. -/
def Open (s : State Blob) (c : AuthConnection) : Prop := c ∈ s.started ∧ s.closed c = false

/-- Every connection of a cached community extends the cached chain, and no two open connections of
a community extend two chains. -/
structure OneChain (s : State Blob) : Prop where
  registered : ∀ T m u c, s.communities.get? T = some m → s.connectionOf m u = some c →
    c.sigChain = m.sigChain
  opened : ∀ T m c, s.communities.get? T = some m → s.Open c → c.communityId = T →
    c.sigChain = m.sigChain
  together : ∀ c d, s.Open c → s.Open d → c.communityId = d.communityId →
    c.sigChain = d.sigChain

/-- The community has no open connection. -/
def Unused (s : State Blob) (T : TeamId) : Prop := ∀ c, s.Open c → c.communityId ≠ T

/-- The action puts a chain into memory only for a community without a connection. -/
structure LoadsAlone (lfa : Lfa Blob) (s : State Blob) (a : Action Blob) : Prop where
  loads : ∀ k caller sigChain team, a = .keysRetrieved k true →
    s.tasks k = .retrievingKeys caller sigChain → lfa.loadTeam sigChain = some team →
    s.Unused caller.teamId ∧ s.Unregistered caller.teamId
  creates : ∀ k env request team, a = .created k env → s.tasks k = .added request team true →
    s.Unused request.teamId

/-! ## What takes away keeps it -/

theorem Open.of_shrinks {s s' : State Blob} {c : AuthConnection} (shrinks : Shrinks s s')
    (isOpen : s'.Open c) : s.Open c := by
  refine ⟨shrinks.started isOpen.1, ?_⟩
  cases closed : s.closed c with
  | false => rfl
  | true => rw [← isOpen.2, shrinks.closed c closed]

theorem connectionOf_of_shrinks {s s' : State Blob} {m m' : ManagedCommunity} {u : UserId}
    {c : AuthConnection} (shrinks : Shrinks s s') (core : m'.core = m.core)
    (found : s'.connectionOf m' u = some c) : s.connectionOf m u = some c := by
  obtain ⟨ref, isRef, found⟩ := Option.bind_eq_some_iff.mp found
  rw [(ManagedCommunity.of_core core).2.2] at isRef
  exact Option.bind_eq_some_iff.mpr ⟨ref, isRef, shrinks.authConnections ref u c found⟩

namespace OneChain

theorem start (stored : TeamId → Option Blob) : OneChain (State.start stored) where
  registered := fun _ _ _ _ found => by cases found
  opened := fun _ _ _ found => by cases found
  together := fun _ _ isOpen => absurd isOpen.1 List.not_mem_nil

theorem mono {s s' : State Blob} (one : OneChain s) (shrinks : Shrinks s s') : OneChain s' where
  registered := by
    intro T m' u c found isRegistered
    obtain ⟨m, before, core⟩ := shrinks.communities T m' found
    rw [(ManagedCommunity.of_core core).2.1]
    exact one.registered T m u c before (connectionOf_of_shrinks shrinks core isRegistered)
  opened := by
    intro T m' c found isOpen own
    obtain ⟨m, before, core⟩ := shrinks.communities T m' found
    rw [(ManagedCommunity.of_core core).2.1]
    exact one.opened T m c before (isOpen.of_shrinks shrinks) own
  together := fun c d c_open d_open =>
    one.together c d (c_open.of_shrinks shrinks) (d_open.of_shrinks shrinks)

/-- What `OneChain` reads: the communities, the maps, what was started and what is closed. -/
theorem congr {s s' : State Blob} (one : OneChain s) (communities : s'.communities = s.communities)
    (maps : s'.authConnections = s.authConnections) (started : s'.started = s.started)
    (closed : s'.closed = s.closed) : OneChain s' := by
  obtain ⟨registered, opened, together⟩ := one
  simp only [connectionOf, Open, ← communities, ← maps, ← started, ← closed] at *
  exact ⟨registered, opened, together⟩

end OneChain

/-! ## A connection is started on the cached chain -/

/-- What is open after a registration is the new connection, or was open before. -/
theorem open_register {s : State Blob} {c d : AuthConnection} {m : ManagedCommunity} {ref : MapRef}
    (isOpen : (s.register c m ref).Open d) : d = c ∨ s.Open d := by
  by_cases new : d = c
  · exact .inl new
  · refine .inr ⟨?_, ?_⟩
    · rcases List.mem_append.mp isOpen.1 with mem | mem
      · exact mem
      · exact absurd (List.mem_singleton.mp mem) new
    · have := isOpen.2
      simp only [register, Function.update_apply, if_neg new] at this
      exact this

theorem OneChain.register {s : State Blob} (wired : Wired s) (one : OneChain s) {c : AuthConnection}
    {m : ManagedCommunity} {ref : MapRef} (onChain : c.sigChain = m.sigChain)
    (isRef : ref.communityId = c.communityId)
    (inMap : ∀ u d, (s.authConnections ref).get? u = some d → d.sigChain = m.sigChain)
    (opened : ∀ d, s.Open d → d.communityId = c.communityId → d.sigChain = m.sigChain) :
    OneChain (s.register c m ref) where
  registered := by
    intro T m' u d found isRegistered
    obtain ⟨ref', isRef', inMap'⟩ := Option.bind_eq_some_iff.mp isRegistered
    simp only [State.register, JsMap.get?_set] at found
    simp only [State.register, Function.update_apply] at inMap'
    split at found
    · -- the community of the new connection
      cases found
      cases isRef'
      rw [if_pos rfl, JsMap.get?_set] at inMap'
      split at inMap'
      · cases inMap'
        exact onChain
      · exact inMap u d inMap'
    · -- any other community has another map
      next other =>
      have : ref' ≠ ref := by
        intro same
        exact other ((wired.ref T m' ref' found isRef').symm.trans (same ▸ isRef))
      rw [if_neg this] at inMap'
      exact one.registered T m' u d found (Option.bind_eq_some_iff.mpr ⟨ref', isRef', inMap'⟩)
  opened := by
    intro T m' d found isOpen own
    simp only [State.register, JsMap.get?_set] at found
    split at found
    · next same =>
      cases found
      rcases open_register isOpen with rfl | before
      · exact onChain
      · exact opened d before (own.trans same)
    · next other =>
      rcases open_register isOpen with rfl | before
      · exact absurd own.symm other
      · exact one.opened T m' d found before own
  together := by
    intro d e d_open e_open same
    rcases open_register d_open with rfl | d_before
    · rcases open_register e_open with rfl | e_before
      · rfl
      · exact onChain.trans (opened e e_before same.symm).symm
    · rcases open_register e_open with rfl | e_before
      · exact (opened d d_before same).trans onChain.symm
      · exact one.together d e d_before e_before same

theorem OneChain.starts {s s' : State Blob} {userId : UserId} {T : TeamId} {socketId : SocketId}
    (wired : Wired s) (one : OneChain s) (starts : s.Starts userId T socketId s') :
    OneChain s' := by
  obtain ⟨m, ref, between, found, isRef, before, after⟩ := starts
  apply mono _ after
  apply register (wired.mono before) (one.mono before) rfl
  · rcases isRef with isRef | own
    · exact wired.ref T m ref found isRef
    · exact own.1
  · intro u d inMap
    rcases isRef with isRef | own
    · apply one.registered T m u d found
      exact Option.bind_eq_some_iff.mpr ⟨ref, isRef, before.authConnections ref u d inMap⟩
    · rw [own.2 u] at inMap
      cases inMap
  · intro d isOpen own
    exact one.opened T m d found (isOpen.of_shrinks before) own

theorem OneChain.startAuthSyncConnection {s : State Blob} (wired : Wired s) (one : OneChain s)
    (userId : UserId) (T : TeamId) (socketId : SocketId) (env : Env) :
    OneChain ((s.startAuthSyncConnection userId T socketId env).getD s) := by
  rcases s.startAuthSyncConnection_getD userId T socketId env with shrinks | starts
  · exact one.mono shrinks
  · exact one.starts wired starts

/-! ## A chain is put into memory -/

/-- **A chain may only be put where no connection is**: the new chain is none that a connection was
built on. -/
theorem oneChain_place {s : State Blob} (wired : Wired s) (one : OneChain s) (T : TeamId)
    (team : Team) (listens : Bool) {m : ManagedCommunity}
    (chain : m.sigChain = (s.newChain team listens).2) :
    OneChain ((s.newChain team listens).1.setCommunity T m) ↔
      s.Unused T ∧ ∀ u, s.connectionOf m u = none := by
  have number : m.sigChain.id = s.next := congrArg SigChain.id chain
  constructor
  · intro after
    constructor
    · intro c isOpen own
      have onNew : c.sigChain = m.sigChain := after.opened T m c (JsMap.get?_set_self ..) isOpen own
      have low := (wired.started c isOpen.1).2
      rw [onNew, number] at low
      exact Nat.lt_irrefl _ low
    · intro u
      apply Option.eq_none_iff_forall_ne_some.mpr
      intro c found
      have onNew : c.sigChain = m.sigChain :=
        after.registered T m u c (JsMap.get?_set_self ..) found
      obtain ⟨ref, _, inMap⟩ := Option.bind_eq_some_iff.mp found
      have low := (wired.mapped ref u c inMap).2.2.2
      rw [onNew, number] at low
      exact Nat.lt_irrefl _ low
  · intro ⟨unused, unregistered⟩
    refine ⟨?_, ?_, one.together⟩
    · intro T' m' u c found isRegistered
      simp only [setCommunity, newChain, JsMap.get?_set] at found
      split at found
      · cases found
        have : s.connectionOf m u = some c := isRegistered
        rw [unregistered u] at this
        cases this
      · exact one.registered T' m' u c found isRegistered
    · intro T' m' c found isOpen own
      simp only [setCommunity, newChain, JsMap.get?_set] at found
      split at found
      · next same => exact absurd (own.trans same) (unused c isOpen)
      · exact one.opened T' m' c found isOpen own

theorem oneChain_record {s : State Blob} {event : Event} :
    OneChain (s.record event) ↔ OneChain s :=
  ⟨fun one => one.congr rfl rfl rfl rfl, fun one => one.congr rfl rfl rfl rfl⟩

theorem oneChain_setTask {s : State Blob} {k : TaskId} {task : Task Blob} :
    OneChain (s.setTask k task) ↔ OneChain s :=
  ⟨fun one => one.congr rfl rfl rfl rfl, fun one => one.congr rfl rfl rfl rfl⟩

theorem oneChain_load {s : State Blob} (wired : Wired s) (one : OneChain s) (T : TeamId)
    (team : Team) : OneChain (s.load T team).1 ↔ s.Unused T ∧ s.Unregistered T := by
  obtain ⟨_, chain, refs⟩ := s.load_spec T team
  have same (u : UserId) : s.connectionOf (s.load T team).2 u = s.registered T u := by
    rw [connectionOf, refs, registered, Option.bind_assoc]
    rfl
  rw [load_state, oneChain_record, oneChain_place wired one T team true chain]
  simp only [same, Unregistered]

theorem oneChain_finishCreate {s : State Blob} (wired : Wired s) (one : OneChain s)
    (request : CreateRequest Blob) (team : Team) (env : Env) :
    OneChain (s.finishCreate request team env) ↔ s.Unused request.teamId := by
  have put : OneChain (s.putCreated request.teamId team) ↔ s.Unused request.teamId := by
    refine (oneChain_place wired one request.teamId team false rfl).trans ?_
    exact and_iff_left fun _ => rfl
  constructor
  · intro after c isOpen own
    have found : (s.putCreated request.teamId team).communities.get? request.teamId =
        some { teamId := request.teamId, sigChain := (s.newChain team false).2 } :=
      JsMap.get?_set_self ..
    obtain ⟨started, closed, m', found', chain⟩ := connect_keeps
      ((s.putCreated request.teamId team).connectionMap request.teamId _).1 request.userId
      request.teamId request.socketId
      { teamId := request.teamId, sigChain := (s.newChain team false).2 }
      ((s.putCreated request.teamId team).connectionMap request.teamId _).2 env
    rw [finishCreate, startAuthSyncConnection_of_no_map found rfl, Option.getD_some] at after
    have low := wired.started c isOpen.1
    have stillOpen := after.opened request.teamId m' c found'
      ⟨started c isOpen.1, (closed c (Nat.lt_succ_of_lt (Nat.lt_succ_of_lt low.1))).trans
        isOpen.2⟩ own
    rw [chain] at stillOpen
    rw [stillOpen] at low
    exact Nat.lt_irrefl _ low.2
  · intro unused
    exact (put.mpr unused).startAuthSyncConnection (wired.putCreated _ _) _ _ _ _

end State

/-! ## Steps and runs -/

section
variable {lfa : Lfa Blob}

open State

theorem loadsAlone_of_plain {s : State Blob} {a : Action Blob} (plain : Plain lfa s a) :
    LoadsAlone lfa s a where
  loads := fun k caller sigChain team isAction waiting isTeam =>
    absurd isTeam (plain.loads k caller sigChain team isAction waiting)
  creates := fun k env request team isAction waiting =>
    absurd waiting (plain.creates k env request team isAction)

/-- The actions that can put a chain into memory: the end of a load and the end of a create. -/
def Action.MayLoad : Action Blob → Prop
  | .keysRetrieved _ _ | .created _ _ => True
  | _ => False

theorem loadsAlone_of_not_mayLoad {s : State Blob} {a : Action Blob} (idle : ¬ a.MayLoad) :
    LoadsAlone lfa s a where
  loads := fun _ _ _ _ isAction => by subst isAction; exact (idle trivial).elim
  creates := fun _ _ _ _ isAction => by subst isAction; exact (idle trivial).elim

/-- **One step**: it keeps `OneChain` exactly if it puts no chain where a connection is. -/
theorem oneChain_step {s s' : State Blob} {a : Action Blob} (wired : Wired s) (one : OneChain s)
    (taken : step lfa s a = some s') : OneChain s' ↔ LoadsAlone lfa s a := by
  cases step_eq_some taken with
  | waits plain => exact iff_of_true (oneChain_setTask.mpr one) (loadsAlone_of_plain plain)
  | loads waiting isTeam =>
    rw [oneChain_setTask, oneChain_load wired one]
    constructor
    · intro alone
      constructor
      case loads =>
        intro k' caller' sigChain' team' isAction waiting' isTeam'
        cases isAction
        cases waiting.symm.trans waiting'
        exact alone
      all_goals simp
    · intro alone
      exact alone.loads _ _ _ _ rfl waiting isTeam
  | @receives k env payload socketId found _ =>
    apply iff_of_true _ (loadsAlone_of_not_mayLoad id)
    obtain ⟨events, received, _⟩ := receive_eq (s.setTask k .idle) payload socketId found
    rw [received]
    exact one.congr rfl rfl rfl rfl
  | signsIn waiting =>
    apply iff_of_true _ (loadsAlone_of_not_mayLoad id)
    have idle := s.idle_shrinks
    exact (one.mono (idle _)).startAuthSyncConnection (wired.mono (idle _)) _ _ _ _
  | adds waiting absent =>
    apply iff_of_true _ (loadsAlone_of_not_mayLoad id)
    exact oneChain_setTask.mpr (one.congr rfl rfl rfl rfl)
  | creates waiting =>
    have idle := s.idle_shrinks
    rw [oneChain_finishCreate (wired.mono (idle _)) (one.mono (idle _))]
    constructor
    · intro unused
      constructor
      case creates =>
        intro k' env' request' team' isAction waiting'
        cases isAction
        cases waiting.symm.trans waiting'
        exact unused
      all_goals simp
    · intro alone
      exact alone.creates _ _ _ _ rfl waiting
  | connected =>
    apply iff_of_true _ (loadsAlone_of_not_mayLoad id)
    exact one.congr rfl rfl rfl rfl
  | disconnected =>
    apply iff_of_true _ (loadsAlone_of_not_mayLoad id)
    exact one.mono (s.lfaDisconnected_shrinks _ _)
  | updated =>
    apply iff_of_true _ (loadsAlone_of_not_mayLoad id)
    rw [update_eq]
    exact one.congr rfl rfl rfl rfl
  | socketDisconnected =>
    apply iff_of_true _ (loadsAlone_of_not_mayLoad id)
    exact one.mono (s.stop_shrinks _ _ _)
  | writeCompleted =>
    apply iff_of_true _ (loadsAlone_of_not_mayLoad id)
    exact one.congr rfl rfl rfl rfl
  | sweep =>
    apply iff_of_true _ (loadsAlone_of_not_mayLoad id)
    exact one.mono (sweep_shrinks wired.keyed _)
  | restart =>
    apply iff_of_true _ (loadsAlone_of_not_mayLoad id)
    exact one.mono s.restart_shrinks

/-- An action that is not enabled puts no chain into memory. -/
theorem loadsAlone_of_none {s : State Blob} {a : Action Blob} (idle : step lfa s a = none) :
    LoadsAlone lfa s a where
  loads := by
    intro k caller sigChain team isAction waiting
    subst isAction
    rw [step, waiting] at idle
    cases idle
  creates := by
    intro k env request team isAction waiting
    subst isAction
    rw [step, waiting] at idle
    cases idle

end

/-- **One chain for a team, exactly when** every chain is put into memory while its community has no
connection: no open one, and for a load none in the map that the entry keeps. For every table of
communities to start from and every run. -/
theorem one_chain_iff (lfa : Lfa Blob) (stored : TeamId → Option Blob) (as : List (Action Blob)) :
    Throughout (step lfa) State.OneChain (.start stored) as ↔
      Along (step lfa) (State.LoadsAlone lfa) (.start stored) as :=
  throughout_iff_along (I := State.Wired) (fun _ _ _ wired taken => wired_step wired taken)
    (fun _ _ _ wired one taken => oneChain_step wired one taken)
    (fun _ _ _ idle => loadsAlone_of_none idle) (.start stored) (.start stored)

/-! ## Two overlapping loads -/

/-- Two members sign in while the community is not in memory. Both calls of `get` read the row; the
first loads its chain and its member is connected; then the second replaces the chain and keeps the
map, and its member is connected on the second chain. -/
def overlappingLoads : List (Action Team) :=
  let env : State.Env := { closes := true, dies := false, now := 0 }
  [.get 0 (.signIn "team" "alice" "socket-a") false,
    .get 1 (.signIn "team" "bob" "socket-b") false,
    .communityRead 0 true, .communityRead 1 true, .keysRetrieved 0 true, .resume 0 env,
    .keysRetrieved 1 true, .resume 1 env]

/-- The table with one community. -/
def oneCommunity (teamId : TeamId) : Option Team :=
  if teamId = "team" then some { id := "team", links := {"root"} } else none

theorem two_chains_of_one_team :
    ¬ Throughout (step (.plain fun _ => ["alice", "bob"])) State.OneChain (.start oneCommunity)
      overlappingLoads := by
  intro throughout
  have one := throughout.of_run rfl
  have same := one.registered "team" _ "alice" _ rfl rfl
  exact absurd same (by decide)

end QuietStorage.Communities
