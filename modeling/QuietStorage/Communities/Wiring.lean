import QuietStorage.Communities.Frame

/-!
# Communities.Wiring — who refers to whom, and the ways an action can go

`Wired` is the invariant of the objects of the manager: every map, chain and connection is referred
to from where it belongs, and serial numbers are not used twice.

`Step` has one constructor for each way an action can go, and `step_eq_some` is the one place where
`step` is taken apart. `wired_step` is the first use of it.
-/

set_option autoImplicit false

namespace QuietStorage.Communities

open Lib Sync

variable {Blob : Type}

namespace State

/-! ## Who refers to whom -/

/-- **The objects are wired up**: a community is kept under its own team id; its map was made for
it; every connection in a map is kept under its user id and belongs to the community of the map; what
a caller of `get` holds was made for the team it asked for; and every object that is referred to has
a serial number below the next one. -/
structure Wired (s : State Blob) : Prop where
  keyed : Keyed s
  ref : ∀ T m ref, s.communities.get? T = some m → m.authConnections = some ref →
    ref.communityId = T
  chain : ∀ T m, s.communities.get? T = some m → m.sigChain.id < s.next
  mapped : ∀ ref u c, (s.authConnections ref).get? u = some c →
    c.userId = u ∧ c.communityId = ref.communityId ∧ c.id < s.next ∧ c.sigChain.id < s.next
  started : ∀ c ∈ s.started, c.id < s.next ∧ c.sigChain.id < s.next
  resolved : ∀ k caller m ref, s.tasks k = .resolved caller (some m) →
    m.authConnections = some ref → ref.communityId = caller.teamId

namespace Wired

theorem start (stored : TeamId → Option Blob) : Wired (State.start stored) where
  keyed := fun _ _ found => by cases found
  ref := fun _ _ _ found => by cases found
  chain := fun _ _ found => by cases found
  mapped := fun _ _ _ found => by cases found
  started := fun _ mem => absurd mem List.not_mem_nil
  resolved := fun _ _ _ _ task => by cases task

theorem mono {s s' : State Blob} (wired : Wired s) (shrinks : Shrinks s s') : Wired s' where
  keyed := wired.keyed.mono shrinks
  ref := by
    intro T m' ref found isRef
    obtain ⟨m, before, core⟩ := shrinks.communities T m' found
    exact wired.ref T m ref before ((ManagedCommunity.of_core core).2.2 ▸ isRef)
  chain := by
    intro T m' found
    obtain ⟨m, before, core⟩ := shrinks.communities T m' found
    rw [(ManagedCommunity.of_core core).2.1]
    exact (wired.chain T m before).trans_le shrinks.next
  mapped := by
    intro ref u c found
    obtain ⟨user, community, low, chain⟩ :=
      wired.mapped ref u c (shrinks.authConnections ref u c found)
    exact ⟨user, community, low.trans_le shrinks.next, chain.trans_le shrinks.next⟩
  started := by
    intro c mem
    obtain ⟨low, chain⟩ := wired.started c (shrinks.started mem)
    exact ⟨low.trans_le shrinks.next, chain.trans_le shrinks.next⟩
  resolved := by
    intro k caller m ref task isRef
    rcases shrinks.tasks k with same | idle
    · exact wired.resolved k caller m ref (same ▸ task) isRef
    · rw [idle] at task
      cases task

/-- A task moves on; what `get` returns is what is in memory. -/
theorem setTask {s : State Blob} (wired : Wired s) (k : TaskId) (task : Task Blob)
    (cached : ∀ caller m, task = .resolved caller (some m) →
      s.communities.get? caller.teamId = some m) : Wired (s.setTask k task) where
  keyed := wired.keyed
  ref := wired.ref
  chain := wired.chain
  mapped := wired.mapped
  started := wired.started
  resolved := by
    intro k' caller m ref isTask isRef
    simp only [State.setTask, Function.update_apply] at isTask
    split at isTask
    · exact wired.ref _ m ref (cached caller m isTask) isRef
    · exact wired.resolved k' caller m ref isTask isRef

/-- A new connection of a community, on its chain and in its map. -/
theorem register {s : State Blob} (wired : Wired s) (userId : UserId) {T : TeamId}
    (socketId : SocketId) {m : ManagedCommunity} {ref : MapRef} (own : m.teamId = T)
    (chain : m.sigChain.id < s.next) (isRef : ref.communityId = T) :
    Wired (s.register (s.newConnection userId T socketId m) m ref) where
  keyed := by
    intro T' m' found
    simp only [State.register, State.newConnection, JsMap.get?_set] at found
    split at found
    · next same =>
      cases found
      exact own.trans same.symm
    · exact wired.keyed T' m' found
  ref := by
    intro T' m' ref' found isRef'
    simp only [State.register, State.newConnection, JsMap.get?_set] at found
    split at found
    · next same =>
      cases found
      cases isRef'
      exact isRef.trans same.symm
    · exact wired.ref T' m' ref' found isRef'
  chain := by
    intro T' m' found
    simp only [State.register, State.newConnection, JsMap.get?_set] at found
    split at found
    · cases found
      exact Nat.lt_succ_of_lt chain
    · exact Nat.lt_succ_of_lt (wired.chain T' m' found)
  mapped := by
    intro ref' u c found
    have before : ∀ u c, (s.authConnections ref').get? u = some c →
        c.userId = u ∧ c.communityId = ref'.communityId ∧ c.id < s.next + 1 ∧
          c.sigChain.id < s.next + 1 := by
      intro u c found
      obtain ⟨user, community, low, lowChain⟩ := wired.mapped ref' u c found
      exact ⟨user, community, Nat.lt_succ_of_lt low, Nat.lt_succ_of_lt lowChain⟩
    simp only [State.register, Function.update_apply] at found
    split at found
    · next same =>
      rw [JsMap.get?_set] at found
      split at found
      · next user =>
        cases found
        refine ⟨user.symm, ?_, Nat.lt_succ_self _, Nat.lt_succ_of_lt chain⟩
        rw [same, isRef]
        rfl
      · exact before u c (same ▸ found)
    · exact before u c found
  started := by
    intro c mem
    rcases List.mem_append.mp mem with mem | mem
    · obtain ⟨low, lowChain⟩ := wired.started c mem
      exact ⟨Nat.lt_succ_of_lt low, Nat.lt_succ_of_lt lowChain⟩
    · cases List.mem_singleton.mp mem
      exact ⟨Nat.lt_succ_self _, Nat.lt_succ_of_lt chain⟩
  resolved := wired.resolved

theorem starts {s s' : State Blob} {userId : UserId} {T : TeamId} {socketId : SocketId}
    (wired : Wired s) (starts : s.Starts userId T socketId s') : Wired s' := by
  obtain ⟨m, ref, between, found, isRef, before, after⟩ := starts
  have own : ref.communityId = T := by
    rcases isRef with isRef | own
    · exact wired.ref T m ref found isRef
    · exact own.1
  apply mono _ after
  apply register (wired.mono before) userId socketId (wired.keyed T m found) _ own
  exact (wired.chain T m found).trans_le before.next

theorem startAuthSyncConnection {s : State Blob} (wired : Wired s) (userId : UserId) (T : TeamId)
    (socketId : SocketId) (env : Env) :
    Wired ((s.startAuthSyncConnection userId T socketId env).getD s) := by
  rcases s.startAuthSyncConnection_getD userId T socketId env with shrinks | starts
  · exact wired.mono shrinks
  · exact wired.starts starts

/-- A community with a chain of its own number, and with the map it had or none. -/
theorem place {s : State Blob} (wired : Wired s) (T : TeamId) (team : Team) (listens : Bool)
    {m : ManagedCommunity} (own : m.teamId = T) (chain : m.sigChain = (s.newChain team listens).2)
    (refs : ∀ ref, m.authConnections = some ref → ref.communityId = T) :
    Wired ((s.newChain team listens).1.setCommunity T m) where
  keyed := by
    intro T' m' found
    simp only [setCommunity, newChain, JsMap.get?_set] at found
    split at found
    · next same =>
      cases found
      exact own.trans same.symm
    · exact wired.keyed T' m' found
  ref := by
    intro T' m' ref found isRef
    simp only [setCommunity, newChain, JsMap.get?_set] at found
    split at found
    · next same =>
      cases found
      exact (refs ref isRef).trans same.symm
    · exact wired.ref T' m' ref found isRef
  chain := by
    intro T' m' found
    simp only [setCommunity, newChain, JsMap.get?_set] at found
    split at found
    · cases found
      rw [chain]
      exact Nat.lt_succ_self s.next
    · exact Nat.lt_succ_of_lt (wired.chain T' m' found)
  mapped := by
    intro ref u c found
    obtain ⟨user, community, low, lowChain⟩ := wired.mapped ref u c found
    exact ⟨user, community, Nat.lt_succ_of_lt low, Nat.lt_succ_of_lt lowChain⟩
  started := by
    intro c mem
    obtain ⟨low, lowChain⟩ := wired.started c mem
    exact ⟨Nat.lt_succ_of_lt low, Nat.lt_succ_of_lt lowChain⟩
  resolved := wired.resolved

end Wired

/-! ## A chain is loaded -/

/-- What `get` puts into memory and returns. -/
theorem load_spec (s : State Blob) (T : TeamId) (team : Team) :
    (s.load T team).2.teamId = T ∧
      (s.load T team).2.sigChain = (s.newChain team true).2 ∧
      (s.load T team).2.authConnections =
        (s.communities.get? T).bind (·.authConnections) := by
  unfold load
  dsimp only [newChain]
  cases s.communities.get? T <;> exact ⟨rfl, rfl, rfl⟩

theorem load_state (s : State Blob) (T : TeamId) (team : Team) :
    (s.load T team).1 =
      ((s.newChain team true).1.setCommunity T (s.load T team).2).record (.loaded T team.links) :=
  rfl

namespace Wired

/-- The trace refers to nothing. -/
theorem retrace {s : State Blob} (wired : Wired s) (trace : List Event) :
    Wired { s with trace := trace } :=
  ⟨wired.keyed, wired.ref, wired.chain, wired.mapped, wired.started, wired.resolved⟩

theorem load {s : State Blob} (wired : Wired s) (T : TeamId) (team : Team) :
    Wired (s.load T team).1 := by
  obtain ⟨own, chain, refs⟩ := s.load_spec T team
  have placed := wired.place T team true own chain (by
    intro ref isRef
    rw [refs] at isRef
    obtain ⟨m, found, isRef⟩ := Option.bind_eq_some_iff.mp isRef
    exact wired.ref T m ref found isRef)
  rw [load_state]
  exact placed.retrace _

theorem putCreated {s : State Blob} (wired : Wired s) (T : TeamId) (team : Team) :
    Wired (s.putCreated T team) :=
  wired.place T team false rfl rfl fun _ none_ => by cases none_

end Wired

end State

/-! ## The ways an action can go -/

section
variable (lfa : Lfa Blob)

open State

/-- The actions that may do more than move a task or fill a field. -/
def Action.Acts : Action Blob → Prop
  | .keysRetrieved _ _ | .resume _ _ | .created _ _ | .disconnected _ _ | .updated _ _
  | .socketDisconnected _ _ _ => True
  | _ => False

/-- The action puts no chain into memory, reports no links, and neither starts nor ends a
connection. -/
structure Plain (s : State Blob) (a : Action Blob) : Prop where
  loads : ∀ k caller sigChain team, a = .keysRetrieved k true →
    s.tasks k = .retrievingKeys caller sigChain → lfa.loadTeam sigChain ≠ some team
  signsIn : ∀ k env T userId socketId m, a = .resume k env →
    s.tasks k ≠ .resolved (.signIn T userId socketId) (some m)
  creates : ∀ k env request team, a = .created k env → s.tasks k ≠ .added request team true
  disconnected : ∀ c now, a ≠ .disconnected c now
  socketDisconnected : ∀ c closes now, a ≠ .socketDisconnected c closes now
  updated : ∀ c received, a ≠ .updated c received

/-- An action and the state it leads to, with one constructor for each way it can go. A task that
only moves on is `waits`. -/
inductive Step (s : State Blob) : Action Blob → State Blob → Prop
  | waits {a : Action Blob} {k : TaskId} {task : Task Blob} (plain : Plain lfa s a)
    (cached : ∀ caller m, task = .resolved caller (some m) →
      s.communities.get? caller.teamId = some m)
    (unstored : ∀ request team, task ≠ .added request team true) : Step s a (s.setTask k task)
  | loads {k : TaskId} {caller : Caller} {sigChain : Blob} {team : Team}
    (waiting : s.tasks k = .retrievingKeys caller sigChain)
    (isTeam : lfa.loadTeam sigChain = some team) :
    Step s (.keysRetrieved k true)
      ((s.load caller.teamId team).1.setTask k
        (.resolved caller (some (s.load caller.teamId team).2)))
  | receives {k : TaskId} {env : Env} {payload : LogEntrySyncPayload} {socketId : SocketId}
    {managedCommunity : Option ManagedCommunity}
    (waiting : s.tasks k = .resolved (.logEntrySync payload socketId) managedCommunity) :
    Step s (.resume k env) ((s.setTask k .idle).receive payload socketId managedCommunity)
  | signsIn {k : TaskId} {env : Env} {T : TeamId} {userId : UserId} {socketId : SocketId}
    {m : ManagedCommunity} (waiting : s.tasks k = .resolved (.signIn T userId socketId) (some m)) :
    Step s (.resume k env)
      (((s.setTask k .idle).startAuthSyncConnection userId T socketId env).getD (s.setTask k .idle))
  | adds {k : TaskId} {request : CreateRequest Blob} {team : Team}
    (waiting : s.tasks k = .adding request team) (absent : s.stored request.teamId = none) :
    Step s (.communityAdded k true)
      (State.setTask { s with
        stored := Function.update s.stored request.teamId (some request.sigChain) } k
        (.added request team true))
  | creates {k : TaskId} {env : Env} {request : CreateRequest Blob} {team : Team}
    (waiting : s.tasks k = .added request team true) :
    Step s (.created k env) ((s.setTask k .idle).finishCreate request team env)
  | connected {c : AuthConnection} {peer : UserId} (started : c ∈ s.started)
    (member : peer ∈ lfa.members (s.team c.sigChain)) :
    Step s (.connected c peer) ((s.setPeer c peer).setStatus c .JOINED)
  | disconnected {c : AuthConnection} {now : Int} (started : c ∈ s.started) :
    Step s (.disconnected c now) (s.lfaDisconnected c now)
  | updated {c : AuthConnection} {received : Finset Link} (started : c ∈ s.started) :
    Step s (.updated c received) (s.update lfa c received)
  | socketDisconnected {c : AuthConnection} {closes : Bool} {now : Int} (started : c ∈ s.started) :
    Step s (.socketDisconnected c closes now) (s.stop c closes now)
  | writeCompleted {i : Nat} {succeeds : Bool} {T : TeamId} {blob : Blob}
    (issued : s.writes[i]? = some (T, blob)) :
    Step s (.writeCompleted i succeeds) (s.completeWrite i T blob succeeds)
  | sweep {now : Int} : Step s (.sweep now) (s.sweep now)
  | restart : Step s .restart s.restart

variable {lfa}

theorem plain_of_not_acts {s : State Blob} {a : Action Blob} (idle : ¬ a.Acts) : Plain lfa s a where
  loads := fun _ _ _ _ isAction => by cases isAction; exact (idle trivial).elim
  signsIn := fun _ _ _ _ _ _ isAction => by cases isAction; exact (idle trivial).elim
  creates := fun _ _ _ _ isAction => by cases isAction; exact (idle trivial).elim
  disconnected := fun _ _ isAction => by cases isAction; exact (idle trivial).elim
  socketDisconnected := fun _ _ _ isAction => by cases isAction; exact (idle trivial).elim
  updated := fun _ _ isAction => by cases isAction; exact (idle trivial).elim

/-- The task holds no community and has added none. -/
def Task.Bare : Task Blob → Prop
  | .resolved _ (some _) | .added _ _ true => False
  | _ => True

theorem Step.moves {s : State Blob} {a : Action Blob} (plain : Plain lfa s a) (k : TaskId)
    {task : Task Blob} (bare : task.Bare) : Step lfa s a (s.setTask k task) := by
  apply Step.waits plain
  · intro caller m isTask
    subst isTask
    exact bare.elim
  · intro request team isTask
    subst isTask
    exact bare

theorem get_step {s : State Blob} {a : Action Blob} (plain : Plain lfa s a) (k : TaskId)
    (caller : Caller) (force : Bool) : Step lfa s a (s.get k caller force) := by
  unfold State.get
  split
  · next m found =>
    apply Step.waits plain
    · intro caller' m' isTask
      cases isTask
      exact found
    · intro request team isTask
      cases isTask
  · exact .moves plain k trivial

theorem readCommunity_step {s : State Blob} {a : Action Blob} (plain : Plain lfa s a) (k : TaskId)
    (caller : Caller) (answers : Bool) : Step lfa s a (s.readCommunity k caller answers) := by
  unfold readCommunity
  split
  · exact .moves plain k trivial
  · exact .moves plain k trivial

theorem processCommunity_step {s : State Blob} {k : TaskId} {caller : Caller} {sigChain : Blob}
    (waiting : s.tasks k = .retrievingKeys caller sigChain) :
    Step lfa s (.keysRetrieved k true) (s.processCommunity lfa k caller sigChain) := by
  unfold processCommunity
  split
  · next unloadable =>
    refine Step.moves ?_ k trivial
    constructor
    case loads =>
      intro k' caller' sigChain' team isAction waiting' isTeam
      cases isAction
      cases waiting.symm.trans waiting'
      exact absurd (unloadable.symm.trans isTeam) (Option.some_ne_none team).symm
    all_goals simp
  · next team isTeam => exact .loads waiting isTeam

theorem goOn_step {s : State Blob} {k : TaskId} {caller : Caller}
    {managedCommunity : Option ManagedCommunity}
    (waiting : s.tasks k = .resolved caller managedCommunity) (env : Env) :
    Step lfa s (.resume k env) ((s.setTask k .idle).goOn caller managedCommunity env) := by
  have idle (other : ∀ T userId socketId m,
      Task.resolved caller managedCommunity ≠
        (Task.resolved (.signIn T userId socketId) (some m) : Task Blob)) :
      Step lfa s (.resume k env) (s.setTask k .idle) := by
    refine Step.moves ?_ k trivial
    constructor
    case signsIn =>
      intro k' env' T userId socketId m isAction waiting'
      cases isAction
      exact other T userId socketId m (waiting.symm.trans waiting')
    all_goals simp
  unfold goOn
  split
  · apply idle
    intro T userId socketId m same
    cases same
  · exact .receives waiting
  · split
    · apply idle
      intro T userId socketId m same
      cases same
    · exact .signsIn waiting

theorem keysMissing_step {s : State Blob} (k : TaskId) (caller : Caller) :
    Step lfa s (.keysRetrieved k false) (s.setTask k (.resolved caller none)) := by
  refine Step.moves ?_ k trivial
  constructor
  all_goals simp

theorem loadCreated_step {s : State Blob} {a : Action Blob} (plain : Plain lfa s a) (k : TaskId)
    (request : CreateRequest Blob) : Step lfa s a (s.loadCreated lfa k request) := by
  unfold loadCreated
  split
  · exact .moves plain k trivial
  · split
    · exact .moves plain k trivial
    · exact .moves plain k trivial

theorem addCommunity_step {s : State Blob} {k : TaskId} {request : CreateRequest Blob}
    {team : Team} (waiting : s.tasks k = .adding request team) (answers : Bool) :
    Step lfa s (.communityAdded k answers) (s.addCommunity k request team answers) := by
  unfold addCommunity
  split
  · next absent => exact .adds waiting absent
  · exact .moves (plain_of_not_acts id) k trivial

theorem notCreated_step {s : State Blob} {k : TaskId} {request : CreateRequest Blob} {team : Team}
    (waiting : s.tasks k = .added request team false) (env : Env) :
    Step lfa s (.created k env) (s.setTask k .idle) := by
  refine Step.moves ?_ k trivial
  constructor
  case creates =>
    intro k' env' request' team' isAction added
    cases isAction
    cases waiting.symm.trans added
  all_goals simp

/-- **A step is one of the ways its action can go.** -/
theorem step_eq_some {s s' : State Blob} {a : Action Blob} (taken : step lfa s a = some s') :
    Step lfa s a s' := by
  cases a with
  | get k caller force =>
    dsimp only [step] at taken
    split at taken
    · cases taken
      exact get_step (plain_of_not_acts id) k caller force
    · cases taken
  | communityRead k answers =>
    dsimp only [step] at taken
    split at taken
    · cases taken
      exact readCommunity_step (plain_of_not_acts id) k _ answers
    · cases taken
  | keysRetrieved k found =>
    dsimp only [step] at taken
    split at taken
    · next waiting =>
      cases found with
      | true =>
        cases taken
        exact processCommunity_step waiting
      | false =>
        cases taken
        exact keysMissing_step k _
    · cases taken
  | resume k env =>
    dsimp only [step] at taken
    split at taken
    · next waiting =>
      cases taken
      exact goOn_step waiting env
    · cases taken
  | create k request =>
    dsimp only [step] at taken
    split at taken
    · cases taken
      exact .moves (plain_of_not_acts id) k trivial
    · cases taken
  | serverKeysRetrieved k found =>
    dsimp only [step] at taken
    split at taken
    · cases found with
      | true =>
        cases taken
        exact loadCreated_step (plain_of_not_acts id) k _
      | false =>
        cases taken
        exact .moves (plain_of_not_acts id) k trivial
    · cases taken
  | keyringStored k stored =>
    dsimp only [step] at taken
    split at taken
    · cases stored with
      | true =>
        cases taken
        exact .moves (plain_of_not_acts id) k trivial
      | false =>
        cases taken
        exact .moves (plain_of_not_acts id) k trivial
    · cases taken
  | communityAdded k answers =>
    dsimp only [step] at taken
    split at taken
    · next waiting =>
      cases taken
      exact addCommunity_step waiting answers
    · cases taken
  | created k env =>
    dsimp only [step] at taken
    split at taken
    · next stored waiting =>
      cases stored with
      | true =>
        cases taken
        exact .creates waiting
      | false =>
        cases taken
        exact notCreated_step waiting env
    · cases taken
  | connected c peer =>
    dsimp only [step] at taken
    split at taken
    · next enabled =>
      cases taken
      exact .connected enabled.1 enabled.2
    · cases taken
  | disconnected c now =>
    dsimp only [step] at taken
    split at taken
    · next started =>
      cases taken
      exact .disconnected started
    · cases taken
  | updated c received =>
    dsimp only [step] at taken
    split at taken
    · next started =>
      cases taken
      exact .updated started
    · cases taken
  | socketDisconnected c closes now =>
    dsimp only [step] at taken
    split at taken
    · next started =>
      cases taken
      exact .socketDisconnected started
    · cases taken
  | writeCompleted i succeeds =>
    dsimp only [step] at taken
    split at taken
    · cases taken
    · next issued =>
      cases taken
      exact .writeCompleted issued
  | sweep now =>
    cases taken
    exact .sweep
  | restart =>
    cases taken
    exact .restart

/-! ## The objects stay wired up -/

theorem wired_step {s s' : State Blob} {a : Action Blob} (wired : Wired s)
    (taken : step lfa s a = some s') : Wired s' := by
  cases step_eq_some taken with
  | waits _ cached _ => exact wired.setTask _ _ cached
  | loads waiting isTeam =>
    apply (wired.load _ _).setTask
    intro caller' m isTask
    cases isTask
    exact JsMap.get?_set_self _ _ _
  | @receives k env payload socketId found _ =>
    obtain ⟨events, received, _⟩ := receive_eq (s.setTask k .idle) payload socketId found
    rw [received]
    exact (wired.mono (s.idle_shrinks k)).retrace _
  | signsIn waiting => exact (wired.mono (s.idle_shrinks _)).startAuthSyncConnection _ _ _ _
  | adds waiting absent =>
    apply Wired.setTask _ _ _
    · intro caller m isTask
      cases isTask
    · exact ⟨wired.keyed, wired.ref, wired.chain, wired.mapped, wired.started, wired.resolved⟩
  | creates waiting =>
    exact ((wired.mono (s.idle_shrinks _)).putCreated _ _).startAuthSyncConnection _ _ _ _
  | connected =>
    exact ⟨wired.keyed, wired.ref, wired.chain, wired.mapped, wired.started, wired.resolved⟩
  | disconnected => exact wired.mono (s.lfaDisconnected_shrinks _ _)
  | updated =>
    rw [update_eq]
    exact ⟨wired.keyed, wired.ref, wired.chain, wired.mapped, wired.started, wired.resolved⟩
  | socketDisconnected => exact wired.mono (s.stop_shrinks _ _ _)
  | writeCompleted =>
    exact ⟨wired.keyed, wired.ref, wired.chain, wired.mapped, wired.started, wired.resolved⟩
  | sweep => exact wired.mono (sweep_shrinks wired.keyed _)
  | restart => exact wired.mono s.restart_shrinks

/-! ## What the callers of `get` hold -/

/-- The start of a connection gives no task anything to hold. -/
theorem startAuthSyncConnection_tasks (s : State Blob) (userId : UserId) (T : TeamId)
    (socketId : SocketId) (env : Env) (k : TaskId) :
    ((s.startAuthSyncConnection userId T socketId env).getD s).tasks k = s.tasks k ∨
      ((s.startAuthSyncConnection userId T socketId env).getD s).tasks k = .idle := by
  rcases s.startAuthSyncConnection_getD userId T socketId env with shrinks | starts
  · exact shrinks.tasks k
  · obtain ⟨m, ref, between, _, _, before, after⟩ := starts
    rcases after.tasks k with same | idle
    · rw [same]
      exact before.tasks k
    · exact .inr idle

/-- What a caller of `get` holds was there before, or is what is in memory. -/
theorem resolved_step {s s' : State Blob} {a : Action Blob} (wired : Wired s)
    (taken : step lfa s a = some s') {k : TaskId} {caller : Caller} {m : ManagedCommunity}
    (isTask : s'.tasks k = .resolved caller (some m)) :
    s.tasks k = .resolved caller (some m) ∨ s'.communities.get? caller.teamId = some m := by
  have of_tasks {s₁ : State Blob} (moved : s'.tasks k = s₁.tasks k ∨ s'.tasks k = .idle) :
      s₁.tasks k = .resolved caller (some m) := by
    rcases moved with same | idle
    · exact same.symm.trans isTask
    · cases idle.symm.trans isTask
  have of_setTask {s₁ : State Blob} {k' : TaskId} {task : Task Blob}
      (isTask : (s₁.setTask k' task).tasks k = .resolved caller (some m)) :
      s₁.tasks k = .resolved caller (some m) ∨ task = .resolved caller (some m) := by
    simp only [State.setTask, Function.update_apply] at isTask
    split at isTask
    · exact .inr isTask
    · exact .inl isTask
  have of_idle {k' : TaskId}
      (isTask : (s.setTask k' .idle).tasks k = .resolved caller (some m)) :
      s.tasks k = .resolved caller (some m) := by
    rcases of_setTask isTask with before | idle
    · exact before
    · cases idle
  cases step_eq_some taken with
  | waits _ cached _ => exact (of_setTask isTask).imp id fun new => cached caller m new
  | loads waiting isTeam =>
    refine (of_setTask isTask).imp id fun new => ?_
    cases new
    exact JsMap.get?_set_self _ _ _
  | @receives k' env payload socketId found _ =>
    obtain ⟨events, received, _⟩ := receive_eq (s.setTask k' .idle) payload socketId found
    rw [received] at isTask
    exact .inl (of_idle isTask)
  | signsIn waiting =>
    exact .inl (of_idle (of_tasks (startAuthSyncConnection_tasks _ _ _ _ _ k)))
  | adds waiting absent =>
    refine (of_setTask isTask).imp id fun new => ?_
    cases new
  | creates waiting =>
    exact .inl (of_idle (of_tasks (startAuthSyncConnection_tasks _ _ _ _ _ k)))
  | connected => exact .inl isTask
  | disconnected => exact .inl (of_tasks ((s.lfaDisconnected_shrinks _ _).tasks k))
  | updated =>
    rw [update_eq] at isTask
    exact .inl isTask
  | socketDisconnected => exact .inl (of_tasks ((s.stop_shrinks _ _ _).tasks k))
  | writeCompleted => exact .inl isTask
  | sweep => exact .inl (of_tasks ((sweep_shrinks wired.keyed _).tasks k))
  | restart => exact .inl (of_tasks (s.restart_shrinks.tasks k))

end

end QuietStorage.Communities
