import QuietStorage.Communities.Rooms
import QuietStorage.Websocket.Handlers

/-!
# Qps.SignedIn — whether a socket is signed into a team

Push is for sockets that are signed into the team. `isAuthorizedForTeam` looks for the auth connection
of one user: the one that the socket is attributed to. A socket has one attribution for all its teams;
a create message overwrites it before anything is created, a sign-in once its connection was started.
The connections are kept by team and user, whoever their socket is attributed to later.

`socketStep` is the machine of the manager with the attributions beside it. `AnswersTruly` is what push
relies on: run alone, `isAuthorizedForTeam` says that the socket has a joined connection for the team
exactly if it has one. `answersTruly_iff` reduces it to the attributed user, and
`answers_truly_iff_along` is exact: a run is answered truly throughout if and only if its messages, its
LFA events and its disconnects leave the attributed user joined wherever the socket is.
-/

set_option autoImplicit false

namespace QuietStorage.Qps

open Lib Communities Websocket
open Sync (AuthStatus)

section
variable {Blob : Type} (lfa : Lfa Blob)

/-! ## `get` alone -/

/-- How the storage, the keys and LFA take part in a `get`. -/
structure GetAnswer where
  /-- `storage.getCommunity` answers. -/
  answers : Bool
  /-- The keys of the community are found. -/
  found : Bool
  /-- What is thrown at a graph that LFA cannot load. -/
  thrown : HandlerError

/-- `get` of a team from its beginning to its end, when nothing else runs. -/
def getAlone (s : State Blob) (T : TeamId) (choice : GetAnswer) :
    State Blob × Except HandlerError (Option ManagedCommunity) :=
  match s.communities.get? T with
  | some managedCommunity => (s, .ok (some managedCommunity))
  | none =>
    match s.stored T, choice.answers, choice.found with
    | some sigChain, true, true =>
      match lfa.loadTeam sigChain with
      | none => (s, .error choice.thrown)
      | some team => ((s.load T team).1, .ok (some (s.load T team).2))
    | _, _, _ => (s, .ok none)

/-- Of the commands of the handlers only `get` of a team is performed here. -/
def performGet (g : Gateway Blob) (c : Command) (choice : GetAnswer) :
    Option (Gateway Blob × Except HandlerError c.Answer) :=
  match c with
  | .get (.string T) =>
    some ({ g with manager := (getAlone lfa g.manager T choice).1 },
      (getAlone lfa g.manager T choice).2)
  | _ => none

/-! ## The machine -/

/-- The data of the sockets after `setSocketAttribution` of one of them. -/
def attributedData (g : Gateway Blob) (socketId : SocketId) (teamId userId : JsValue)
    (source : WebsocketEvents) : SocketId → SocketData :=
  Function.update g.data socketId (setSocketAttribution (g.data socketId) teamId userId source).1

inductive SocketAction (Blob : Type) where
  | act (a : Action Blob)
  /-- A create message passes the checks of the captcha, and fails before the manager's `create` has
  begun. -/
  | createFails (socketId : SocketId) (teamId userId : JsValue)

/-- The data of the sockets after an action. A create message attributes its socket when it comes in;
a sign-in when `startAuthSyncConnection` has returned. A restart ends all sockets. -/
def attribution (g : Gateway Blob) : SocketAction Blob → SocketId → SocketData
  | .createFails socketId teamId userId => attributedData g socketId teamId userId .CreateCommunity
  | .act (.create k request) =>
    match g.manager.tasks k with
    | .idle =>
      attributedData g request.socketId (.string request.teamId) (.string request.userId) .CreateCommunity
    | _ => g.data
  | .act (.resume k _) =>
    match g.manager.tasks k with
    | .resolved (.signIn T userId socketId) (some _) =>
      if (g.manager.communities.get? T).isSome then
        attributedData g socketId (.string T) (.string userId) .SignInCommunity
      else g.data
    | _ => g.data
  | .act .restart => fun _ => {}
  | .act _ => g.data

def socketStep (g : Gateway Blob) (a : SocketAction Blob) : Option (Gateway Blob) :=
  match a with
  | .act b =>
    (step lfa g.manager b).map fun manager =>
      { g with manager := manager, data := attribution g a }
  | .createFails _ _ _ => some { g with data := attribution g a }

/-- A fresh process over the stored communities. -/
def freshGateway (stored : TeamId → Option Blob) : Gateway Blob :=
  { (default : Gateway Blob) with manager := .start stored }

/-! ## The property and its condition -/

/-- **`isAuthorizedForTeam` answers truly**: run alone it returns, and it returns whether some
connection of the cached community is bound to the socket and JOINED. -/
structure AnswersTruly (g : Gateway Blob) (config : HandlerConfig) (T : TeamId) : Prop where
  returns : ∃ g' b, Ends (performGet lfa) (isAuthorizedForTeam config (.string T)) g g' (.ok b)
  truly : ∀ g' r, Ends (performGet lfa) (isAuthorizedForTeam config (.string T)) g g' r →
    ∃ b, r = .ok b ∧ (b = true ↔ g.manager.Session T config.socketId)

end

section
variable {Blob : Type}

/-- The user that the socket is attributed to has a joined connection on it. -/
def SignedIn (g : Gateway Blob) (socketId : SocketId) (T : TeamId) : Prop :=
  ∃ u d, (g.data socketId).userId = .string u ∧ g.manager.Joined T u d ∧ d.socketId = socketId

/-- The action ends a joined connection. -/
def SocketAction.EndsJoined (g : Gateway Blob) (a : SocketAction Blob) (T : TeamId) (u : UserId)
    (d : AuthConnection) : Prop :=
  match a with
  | .act b => g.manager.Ends b T u d
  | .createFails _ _ _ => False

/-- A joined connection of the socket that is still there after the action. -/
def Stays (g : Gateway Blob) (a : SocketAction Blob) (socketId : SocketId) (T : TeamId) (u : UserId)
    (d : AuthConnection) : Prop :=
  (g.manager.Joined T u d ∧ d.socketId = socketId) ∧ ¬ a.EndsJoined g T u d

/-- **The attributed user stays joined** wherever the socket is. -/
structure KeepsAttributed (lfa : Lfa Blob) (g : Gateway Blob) (a : SocketAction Blob) : Prop where
  /-- A message attributes its socket to another user only if that user is joined on the socket in
  every team in which the socket stays joined. -/
  attributes : ∀ socketId T, (attribution g a socketId).userId ≠ (g.data socketId).userId →
    (∃ u d, Stays g a socketId T u d) →
      ∃ u d, (attribution g a socketId).userId = .string u ∧ Stays g a socketId T u d
  /-- The joined connection of the attributed user does not end before the others of the socket. -/
  ends : ∀ socketId T u d, (attribution g a socketId).userId = (g.data socketId).userId →
    (g.data socketId).userId = .string u → g.manager.Joined T u d → d.socketId = socketId →
    a.EndsJoined g T u d → ∀ v e, ¬ Stays g a socketId T v e
  /-- LFA connects a connection of the attributed user, or one of a team in which that user is joined
  already. -/
  connects : ∀ c peer, a = .act (.connected c peer) → socketStep lfa g a ≠ none →
    g.manager.registered c.communityId c.userId = some c →
      (g.data c.socketId).userId = .string c.userId ∨ SignedIn g c.socketId c.communityId

/-! ## What `isAuthorizedForTeam` answers -/

variable {lfa : Lfa Blob}

/-- What `get` alone finds of a user is who is registered. -/
theorem getAlone_connectionOf {s : State Blob} {T : TeamId} {choice : GetAnswer}
    {community : Option ManagedCommunity} (answered : (getAlone lfa s T choice).2 = .ok community)
    (u : UserId) :
    (community.bind fun m => (getAlone lfa s T choice).1.connectionOf m u) = s.registered T u := by
  unfold getAlone at answered ⊢
  cases cached : s.communities.get? T with
  | some m =>
    rw [cached] at answered
    cases answered
    rw [State.registered, cached]
  | none =>
    have nobody : s.registered T u = none := by
      rw [State.registered, cached]
      rfl
    rw [cached] at answered
    rw [nobody]
    dsimp only at answered ⊢
    split at answered
    · next sigChain _ _ _ =>
      cases isTeam : lfa.loadTeam sigChain with
      | none =>
        rw [isTeam] at answered
        cases answered
      | some team =>
        rw [isTeam] at answered
        cases answered
        have noMap : (s.load T team).2.authConnections = none := by
          rw [(s.load_spec T team).2.2, cached]
          rfl
        show State.connectionOf _ (s.load T team).2 u = none
        rw [State.connectionOf, noMap]
        rfl
    · cases answered
      rfl

/-- A `get` that throws is of a community that is not cached. -/
theorem getAlone_error {s : State Blob} {T : TeamId} {choice : GetAnswer} {e : HandlerError}
    (thrown : (getAlone lfa s T choice).2 = .error e) (u : UserId) : s.registered T u = none := by
  unfold getAlone at thrown
  cases cached : s.communities.get? T with
  | some m =>
    rw [cached] at thrown
    cases thrown
  | none =>
    rw [State.registered, cached]
    rfl

theorem getAlone_status (s : State Blob) (T : TeamId) (choice : GetAnswer) :
    (getAlone lfa s T choice).1.status = s.status := by
  unfold getAlone
  split
  · rfl
  · split
    · split <;> rfl
    · rfl

/-- The first step of a `get` of a team that is not cached. -/
theorem step_get {s : State Blob} {k : TaskId} (idle : s.tasks k = .idle) {T : TeamId}
    (cached : s.communities.get? T = none) :
    step lfa s (.get k (.reader T) false) = some (s.setTask k (.reading (.reader T))) := by
  simp [step, idle, State.get, Caller.teamId, cached]

/-- The second step, when there is no row or the storage does not answer. -/
theorem step_communityRead_none {s : State Blob} {k : TaskId} {T : TeamId} {answers : Bool}
    (missing : s.stored T = none ∨ answers = false) :
    step lfa (s.setTask k (.reading (.reader T))) (.communityRead k answers) =
      some (s.setTask k (.resolved (.reader T) none)) := by
  rcases missing with unstored | rfl
  · simp [step, State.readCommunity, Caller.teamId, State.setTask, unstored]
  · simp [step, State.readCommunity, State.setTask]

/-- The second step, when there is a row. -/
theorem step_communityRead {s : State Blob} {k : TaskId} {T : TeamId} {sigChain : Blob}
    (isStored : s.stored T = some sigChain) :
    step lfa (s.setTask k (.reading (.reader T))) (.communityRead k true) =
      some (s.setTask k (.retrievingKeys (.reader T) sigChain)) := by
  simp [step, State.readCommunity, Caller.teamId, State.setTask, isStored]

/-- The last step, when the keys are found and LFA loads the chain. -/
theorem step_keysRetrieved {s : State Blob} {k : TaskId} {T : TeamId} {sigChain : Blob} {team : Team}
    (isTeam : lfa.loadTeam sigChain = some team) :
    step lfa (s.setTask k (.retrievingKeys (.reader T) sigChain)) (.keysRetrieved k true) =
      some ((s.load T team).1.setTask k (.resolved (.reader T) (some (s.load T team).2))) := by
  simp only [step, State.setTask_tasks, if_true, State.processCommunity, isTeam]
  exact congrArg some (State.setTask_setTask (s.load T team).1 k _ _)

/-- The last step, when they are not. -/
theorem step_keysRetrieved_none {s : State Blob} {k : TaskId} {T : TeamId} {sigChain : Blob} :
    step lfa (s.setTask k (.retrievingKeys (.reader T) sigChain)) (.keysRetrieved k false) =
      some (s.setTask k (.resolved (.reader T) none)) := by
  simp only [step, State.setTask_tasks, Bool.false_eq_true, if_false, State.setTask_setTask]

/-- A `get` alone that returns is a run of the manager in which only its task moves. -/
theorem getAlone_runs {s : State Blob} {k : TaskId} (idle : s.tasks k = .idle) {T : TeamId}
    {choice : GetAnswer} {community : Option ManagedCommunity}
    (answered : (getAlone lfa s T choice).2 = .ok community) :
    ∃ as, run (step lfa) s as =
      some ((getAlone lfa s T choice).1.setTask k (.resolved (.reader T) community)) := by
  unfold getAlone at answered ⊢
  cases cached : s.communities.get? T with
  | some m =>
    rw [cached] at answered
    cases answered
    refine ⟨[.get k (.reader T) false], ?_⟩
    simp [run, step, idle, State.get, Caller.teamId, cached]
  | none =>
    rw [cached] at answered
    dsimp only at answered ⊢
    split at answered
    · next sigChain isStored _ _ =>
      cases isTeam : lfa.loadTeam sigChain with
      | none =>
        rw [isTeam] at answered
        cases answered
      | some team =>
        rw [isTeam] at answered
        cases answered
        refine ⟨[.get k (.reader T) false, .communityRead k true, .keysRetrieved k true], ?_⟩
        simp only [step_get idle cached, step_communityRead isStored,
          step_keysRetrieved isTeam, Option.bind_some, run]
    · next missing =>
      cases answered
      cases isStored : s.stored T with
      | none =>
        refine ⟨[.get k (.reader T) false, .communityRead k true], ?_⟩
        simp only [step_get idle cached, step_communityRead_none (.inl isStored),
          Option.bind_some, run]
      | some sigChain =>
        -- the storage does not answer, or the keys are not found
        cases answers : choice.answers with
        | false =>
          refine ⟨[.get k (.reader T) false, .communityRead k false], ?_⟩
          simp only [step_get idle cached, step_communityRead_none (.inr rfl),
            Option.bind_some, run]
        | true =>
          refine ⟨[.get k (.reader T) false, .communityRead k true, .keysRetrieved k false], ?_⟩
          simp only [step_get idle cached, step_communityRead isStored,
            step_keysRetrieved_none, Option.bind_some, run]

/-- Only a string is the key of a connection. -/
theorem string_of_connectionOf {g : Gateway Blob} {community : Option ManagedCommunity}
    {userId : JsValue} {connection : AuthConnection}
    (found : g.connectionOf community userId = some connection) : ∃ u, userId = .string u := by
  cases userId with
  | string u => exact ⟨u, rfl⟩
  | _ => cases found

variable {g g' : Gateway Blob} {config : HandlerConfig} {T : TeamId}

/-- The check answers for the attributed user, or throws where nobody is registered. -/
theorem hasJoinedAuthConnection_ends {r : Except HandlerError Bool}
    (ended : Ends (performGet lfa) (hasJoinedAuthConnection config (.string T)) g g' r) :
    (∃ b, r = .ok b ∧ (b = true ↔ SignedIn g config.socketId T)) ∨
      (∃ e, r = .error e) ∧ ¬ SignedIn g config.socketId T := by
  unfold hasJoinedAuthConnection at ended
  rw [ends_get_bind] at ended
  dsimp only at ended
  split at ended
  · next nullish =>
    obtain ⟨-, rfl⟩ := ended
    refine .inl ⟨false, rfl, iff_of_false Bool.noConfusion ?_⟩
    intro ⟨u, d, isUser, _⟩
    rw [isUser] at nullish
    cases nullish
  · rcases ends_bind.mp ended with ⟨g₁, community, got, rest⟩ | ⟨e, got, rfl⟩
    · obtain ⟨choice, performed⟩ := ends_send.mp got
      obtain ⟨rfl, answered⟩ := Prod.mk.inj (Option.some.inj performed)
      rw [ends_get_bind] at rest
      have looked : ∀ u, (g.data config.socketId).userId = .string u →
          Gateway.connectionOf { g with manager := (getAlone lfa g.manager T choice).1 } community
            (g.data config.socketId).userId = g.manager.registered T u := by
        intro u isUser
        rw [isUser]
        exact getAlone_connectionOf answered u
      split at rest
      · next missing =>
        obtain ⟨-, rfl⟩ := rest
        refine .inl ⟨false, rfl, iff_of_false Bool.noConfusion ?_⟩
        intro ⟨u, d, isUser, ⟨found, _⟩, _⟩
        exact Option.some_ne_none d (found.symm.trans ((looked u isUser).symm.trans missing))
      · next connection isConnection =>
        obtain ⟨-, rfl⟩ := rest
        obtain ⟨u, isUser⟩ := string_of_connectionOf isConnection
        have found := (looked u isUser).symm.trans isConnection
        refine .inl ⟨_, rfl, ?_⟩
        rw [Bool.and_eq_true_iff, decide_eq_true_iff, decide_eq_true_iff]
        rw [show Gateway.manager _ = (getAlone lfa g.manager T choice).1 from rfl, getAlone_status]
        constructor
        · intro ⟨own, joined⟩
          exact ⟨u, connection, isUser, ⟨found, joined⟩, own⟩
        · intro ⟨v, d, isUser', ⟨found', joined⟩, own⟩
          cases isUser.symm.trans isUser'
          cases found.symm.trans found'
          exact ⟨own, joined⟩
    · obtain ⟨choice, performed⟩ := ends_send.mp got
      obtain ⟨-, thrown⟩ := Prod.mk.inj (Option.some.inj performed)
      refine .inr ⟨⟨e, rfl⟩, ?_⟩
      intro ⟨u, d, _, ⟨found, _⟩, _⟩
      exact Option.some_ne_none d (found.symm.trans (getAlone_error thrown u))

/-- Whatever is thrown is an answer in the negative. -/
theorem isAuthorizedForTeam_ends {r : Except HandlerError Bool}
    (ended : Ends (performGet lfa) (isAuthorizedForTeam config (.string T)) g g' r) :
    ∃ b, r = .ok b ∧ (b = true ↔ SignedIn g config.socketId T) := by
  rcases ends_tryCatch.mp ended with ⟨b, checked, rfl⟩ | ⟨g₁, e, thrown, caught⟩
  · rcases hasJoinedAuthConnection_ends checked with answered | ⟨⟨e, isError⟩, _⟩
    · exact answered
    · cases isError
  · rcases hasJoinedAuthConnection_ends thrown with ⟨b, isOk, _⟩ | ⟨_, signedOut⟩
    · cases isOk
    · obtain ⟨-, rfl⟩ := caught
      exact ⟨false, rfl, iff_of_false Bool.noConfusion signedOut⟩

variable (lfa) in
theorem isAuthorizedForTeam_canEnd (config : HandlerConfig) (T : TeamId) :
    CanEnd (performGet lfa) (isAuthorizedForTeam config (.string T) : GatewayM Blob Bool) := by
  refine canEnd_tryCatch (canEnd_get_bind fun g => ?_) fun e => ?_
  · dsimp only
    split
    · exact canEnd_pure false
    · refine canEnd_bind (canEnd_send fun g => ⟨⟨true, true, .typeError⟩, _, _, rfl⟩) fun m => ?_
      refine canEnd_get_bind fun g' => ?_
      split <;> exact canEnd_pure _
  · exact canEnd_bind (canEnd_bind (canEnd_ofExcept _) fun _ => canEnd_pure _) fun _ => canEnd_pure _

/-- **`isAuthorizedForTeam` is about the attributed user**: it answers truly exactly if that user is
joined on the socket whenever anybody is. -/
theorem answersTruly_iff :
    AnswersTruly lfa g config T ↔
      (g.manager.Session T config.socketId → SignedIn g config.socketId T) := by
  obtain ⟨g₁, r, ended⟩ := isAuthorizedForTeam_canEnd lfa config T g
  obtain ⟨b, rfl, isSignedIn⟩ := isAuthorizedForTeam_ends ended
  constructor
  · intro answers session
    obtain ⟨b', same, isSession⟩ := answers.truly g₁ _ ended
    cases same
    exact isSignedIn.mp (isSession.mpr session)
  · intro attributed
    refine ⟨⟨g₁, b, ended⟩, fun g₂ r ended₂ => ?_⟩
    obtain ⟨b₂, isAnswer, isSignedIn₂⟩ := isAuthorizedForTeam_ends ended₂
    refine ⟨b₂, isAnswer, isSignedIn₂.trans ⟨?_, attributed⟩⟩
    intro ⟨u, d, _, joined, own⟩
    exact ⟨u, d, joined, own⟩

/-! ## Steps -/

/-- The sessions of the sockets are those of their attributed users. -/
def Attributed (g : Gateway Blob) : Prop :=
  ∀ socketId T, g.manager.Session T socketId → SignedIn g socketId T

variable {a : SocketAction Blob}

/-- The data after an action that is taken. -/
theorem socketStep_data (taken : socketStep lfa g a = some g') : g'.data = attribution g a := by
  cases a with
  | act b =>
    obtain ⟨manager, _, rfl⟩ := Option.map_eq_some_iff.mp taken
    rfl
  | createFails socketId teamId userId =>
    cases taken
    rfl

/-- An action but LFA's 'connected' leaves the joined connections that it does not end. -/
theorem joined_socketStep (wired : g.manager.Wired) (other : ∀ c peer, a ≠ .act (.connected c peer))
    (taken : socketStep lfa g a = some g') (socketId : SocketId) (T : TeamId) (u : UserId)
    (d : AuthConnection) :
    (g'.manager.Joined T u d ∧ d.socketId = socketId) ↔ Stays g a socketId T u d := by
  unfold Stays
  cases a with
  | act b =>
    obtain ⟨manager, stepped, rfl⟩ := Option.map_eq_some_iff.mp taken
    have notConnected : ∀ c peer, b ≠ .connected c peer := by
      intro c peer same
      exact other c peer (congrArg _ same)
    rw [State.joined_step wired notConnected stepped]
    exact and_right_comm
  | createFails socketId' teamId userId =>
    cases taken
    exact (and_iff_left id).symm

/-- LFA's 'connected' attributes no socket and ends no connection. -/
theorem keepsAttributed_connected {c : AuthConnection} {peer : UserId} :
    KeepsAttributed lfa g (.act (.connected c peer)) ↔
      (socketStep lfa g (.act (.connected c peer)) ≠ none →
        g.manager.registered c.communityId c.userId = some c →
        (g.data c.socketId).userId = .string c.userId ∨ SignedIn g c.socketId c.communityId) := by
  constructor
  · intro keeps
    exact keeps.connects c peer rfl
  · intro connects
    constructor
    · intro socketId T changed
      exact absurd rfl changed
    · intro socketId T u d _ _ _ _ ends
      exact ends.elim
    · intro c' peer' same
      cases same
      exact connects

theorem attributed_connected (wired : g.manager.Wired) (attributed : Attributed g)
    {c : AuthConnection} {peer : UserId}
    (taken : socketStep lfa g (.act (.connected c peer)) = some g') :
    Attributed g' ↔ KeepsAttributed lfa g (.act (.connected c peer)) := by
  rw [keepsAttributed_connected]
  simp only [taken, ne_eq, reduceCtorEq, not_false_eq_true, forall_const]
  obtain ⟨manager, stepped, rfl⟩ := Option.map_eq_some_iff.mp taken
  obtain rfl : manager = (g.manager.setPeer c peer).setStatus c .JOINED := by
    dsimp only [step] at stepped
    split at stepped
    · exact (Option.some.inj stepped).symm
    · cases stepped
  have signedIn (socketId : SocketId) (T : TeamId) :
      SignedIn { g with
          manager := (g.manager.setPeer c peer).setStatus c .JOINED
          data := attribution g (.act (.connected c peer)) } socketId T ↔
        ∃ u d, (g.data socketId).userId = .string u ∧
          (g.manager.registered T u = some d ∧ (d = c ∨ g.manager.status d = .JOINED)) ∧
          d.socketId = socketId := by
    unfold SignedIn
    simp only [State.joined_connected]
    exact Iff.rfl
  constructor
  · intro after registered
    have session := (session_connected wired c peer c.communityId c.socketId).mpr
      (.inr ⟨rfl, registered⟩)
    obtain ⟨u, d, isUser, ⟨found, rfl | joined⟩, own⟩ :=
      (signedIn _ _).mp (after c.socketId c.communityId session)
    · exact .inl ((wired.registered found).1 ▸ isUser)
    · exact .inr ⟨u, d, isUser, ⟨found, joined⟩, own⟩
  · intro connects socketId T session
    rw [signedIn]
    rcases (session_connected wired c peer T socketId).mp session with before | ⟨rfl, registered⟩
    · obtain ⟨u, d, isUser, ⟨found, joined⟩, own⟩ := attributed socketId T before
      exact ⟨u, d, isUser, ⟨found, .inr joined⟩, own⟩
    · obtain rfl : c.communityId = T := (wired.registered registered).2.1
      rcases connects registered with isUser | ⟨u, d, isUser, ⟨found, joined⟩, own⟩
      · exact ⟨c.userId, c, isUser, ⟨registered, .inl rfl⟩, rfl⟩
      · exact ⟨u, d, isUser, ⟨found, .inr joined⟩, own⟩

/-- **One action** leaves the sockets with the sessions of their attributed users exactly if it meets
the condition. -/
theorem attributed_step (wired : g.manager.Wired) (attributed : Attributed g)
    (taken : socketStep lfa g a = some g') : Attributed g' ↔ KeepsAttributed lfa g a := by
  by_cases connects : ∃ c peer, a = .act (.connected c peer)
  · obtain ⟨c, peer, rfl⟩ := connects
    exact attributed_connected wired attributed taken
  · have other (c : AuthConnection) (peer : UserId) : a ≠ .act (.connected c peer) :=
      fun same => connects ⟨c, peer, same⟩
    have after : Attributed g' ↔ ∀ socketId T, (∃ u d, Stays g a socketId T u d) →
        ∃ u d, (attribution g a socketId).userId = .string u ∧ Stays g a socketId T u d := by
      unfold Attributed State.Session SignedIn
      simp only [joined_socketStep wired other taken, socketStep_data taken]
    rw [after]
    constructor
    · intro stays
      constructor
      · intro socketId T _ session
        exact stays socketId T session
      · intro socketId T u d same isUser joined own ends v e other
        obtain ⟨u', d', isUser', ⟨joined', _⟩, unended⟩ := stays socketId T ⟨v, e, other⟩
        cases isUser.symm.trans (same.symm.trans isUser')
        cases joined.1.symm.trans joined'.1
        exact unended ends
      · intro c peer isConnected
        exact absurd isConnected (other c peer)
    · intro keeps socketId T session
      by_cases same : (attribution g a socketId).userId = (g.data socketId).userId
      · obtain ⟨v, e, stays⟩ := session
        -- somebody is joined before the action, so the attributed user is
        obtain ⟨u, d, isUser, joined, own⟩ := attributed socketId T ⟨v, e, stays.1⟩
        refine ⟨u, d, same.trans isUser, ⟨joined, own⟩, fun ends => ?_⟩
        exact keeps.ends socketId T u d same isUser joined own ends v e stays
      · exact keeps.attributes socketId T same session

/-- Only a message that is handled attributes its socket. -/
theorem attribution_of_none {b : Action Blob} (refused : step lfa g.manager b = none) :
    attribution g (.act b) = g.data := by
  cases b with
  | create k request =>
    unfold attribution
    dsimp only
    split
    · next idle =>
      rw [step, idle] at refused
      cases refused
    · rfl
  | resume k env =>
    unfold attribution
    dsimp only
    split
    · next waiting =>
      rw [step, waiting] at refused
      cases refused
    · rfl
  | restart => cases refused
  | _ => rfl

/-- An action that is not enabled meets the condition. -/
theorem keepsAttributed_of_none (idle : socketStep lfa g a = none) : KeepsAttributed lfa g a := by
  cases a with
  | createFails socketId teamId userId => cases idle
  | act b =>
    have refused : step lfa g.manager b = none := Option.map_eq_none_iff.mp idle
    have same := attribution_of_none refused
    constructor
    · intro socketId T changed
      rw [same] at changed
      exact absurd rfl changed
    · intro socketId T u d _ _ _ _ ends
      exact absurd ends (not_ends_of_none refused T u d)
    · intro c peer _ enabled
      exact absurd idle enabled

theorem wired_socketStep (wired : g.manager.Wired) (taken : socketStep lfa g a = some g') :
    g'.manager.Wired := by
  cases a with
  | act b =>
    obtain ⟨manager, stepped, rfl⟩ := Option.map_eq_some_iff.mp taken
    exact wired_step wired stepped
  | createFails socketId teamId userId =>
    cases taken
    exact wired

/-! ## The handlers -/

section
variable (config : HandlerConfig) (callback : JsValue) (g : Gateway Blob)

/-- Attributing a socket does not wait. The log line of a change may throw, when all is done. -/
theorem advance_attributeSocket (teamId userId : JsValue) (source : WebsocketEvents) :
    ∃ r, (attributeSocket config teamId userId source : GatewayM Blob Unit).advance g =
      ({ g with data := attributedData g config.socketId teamId userId source }, .done r) := by
  unfold attributeSocket
  simp only [advance_bind, advance_get, advance_modify]
  split
  · exact ⟨_, advance_ofExcept _ _⟩
  · exact ⟨_, advance_pure _ _⟩

/-- A response changes neither the data of a socket nor the manager. -/
theorem advance_respond (event : WebsocketEvents) (status : CommunityOperationStatus)
    (reason : Option String) (payload : Option JsValue) :
    ((respond config event callback status reason payload : GatewayM Blob Unit).advance g).1.data =
        g.data ∧
      ((respond config event callback status reason payload : GatewayM Blob Unit).advance g).1.manager =
        g.manager := by
  unfold respond
  simp only [advance_bind, advance_get, advance_modify]
  split <;> exact ⟨rfl, rfl⟩

/-- Nor does a handler's answer to what was thrown. -/
theorem advance_caught (m : GatewayM Blob Unit) (event : WebsocketEvents)
    (reason : HandlerError → Option String) :
    let caught := MonadExcept.tryCatch m fun e =>
      respond config event callback .ERROR (reason e) none
    (caught.advance g).1.data = (m.advance g).1.data ∧
      (caught.advance g).1.manager = (m.advance g).1.manager := by
  dsimp only
  rw [advance_tryCatch]
  cases m.advance g with
  | mk g' stage =>
    cases stage with
    | waiting c k => exact ⟨rfl, rfl⟩
    | done r =>
      cases r with
      | ok a => exact ⟨rfl, rfl⟩
      | error e => exact advance_respond config callback g' event .ERROR (reason e) none

/-- **A create message** attributes its socket before `create` is called, whether or not it comes to
that. -/
theorem handleCreateCommunity_data {message community teamId teamKeyring userId : JsValue}
    (verified : (g.data config.socketId).verifiedCaptcha = true)
    (unused : (g.data config.socketId).usedCaptchaForCreateCommunity = false)
    (reads : createPayload message = .ok (community, teamId, teamKeyring, userId)) :
    ((handleCreateCommunity config message callback : GatewayM Blob Unit).advance g).1.data =
      attributedData g config.socketId teamId userId .CreateCommunity := by
  obtain ⟨r, attributed⟩ := advance_attributeSocket config g teamId userId .CreateCommunity
  refine (advance_caught config callback g _ _ fun _ => some "Error while creating community").1.trans ?_
  simp only [advance_bind, advance_get, verified, unused, reads, js, advance_ofExcept,
    Except.mapError, attributed, reduceCtorEq, if_false, Bool.false_eq_true]
  cases r with
  | ok => simp only [advance_modify, advance_send]; rfl
  | error e => rfl

/-- **A sign-in** waits for `get`, and attributes its socket when `startAuthSyncConnection` has
returned. -/
theorem handleSignInToCommunity_data {message payload teamId userId : JsValue} {printed : String}
    (reads : message.property "payload" = .ok payload) (present : payload.isNullish = false)
    (readsTeam : payload.property "teamId" = .ok teamId)
    (readsUser : payload.property "userId" = .ok userId) (prints : teamId.text = .ok printed) :
    ∃ k, (handleSignInToCommunity config message callback : GatewayM Blob Unit).advance g =
        (g, .waiting (Command.get teamId) k) ∧
      ∀ (g' : Gateway Blob) m, match g'.calls (.startAuthSyncConnection userId teamId config.socketId) with
        | .ok manager =>
          ((k (.ok (some m))).advance g').1.data =
              attributedData g' config.socketId teamId userId .SignInCommunity ∧
            ((k (.ok (some m))).advance g').1.manager = manager
        | .error _ =>
          ((k (.ok (some m))).advance g').1.data = g'.data ∧
            ((k (.ok (some m))).advance g').1.manager = g'.manager := by
  unfold handleSignInToCommunity
  simp only [advance_tryCatch, advance_bind, reads, js, advance_ofExcept, Except.mapError, present,
    readsTeam, readsUser, advance_send, Bool.false_eq_true, if_false]
  refine ⟨_, rfl, fun g' m => ?_⟩
  have caught := fun body => advance_caught config callback g' body .SignInCommunity fun e =>
    some (e.reasonOr "Error while signing in to community")
  cases called : g'.calls (.startAuthSyncConnection userId teamId config.socketId) with
  | ok manager =>
    obtain ⟨r, attributed⟩ := advance_attributeSocket config { g' with manager := manager } teamId
      userId .SignInCommunity
    refine ⟨(caught _).1.trans ?_, (caught _).2.trans ?_⟩
    all_goals
      simp only [advance_bind, Async.advance, prints, advance_ofExcept, Option.isNone_some,
        Bool.false_eq_true, if_false, call, advance_get, called, advance_modify, attributed]
      cases r with
      | ok => simp only [advance_respond, attributedData]
      | error e => rfl
  | error e =>
    refine ⟨(caught _).1.trans ?_, (caught _).2.trans ?_⟩
    all_goals
      simp only [advance_bind, Async.advance, prints, advance_ofExcept, Option.isNone_some,
        Bool.false_eq_true, if_false, call, advance_get, called]

end

end

/-- **Push is answered truly, exactly when** the attributed user of every socket stays joined wherever
the socket is: for every table of communities and every run of messages, LFA events and disconnects on
any sockets. -/
theorem answers_truly_iff_along {Blob : Type} (lfa : Lfa Blob) (stored : TeamId → Option Blob)
    (as : List (SocketAction Blob)) :
    Throughout (socketStep lfa) (fun g => ∀ config T, AnswersTruly lfa g config T)
        (freshGateway stored) as ↔
      Along (socketStep lfa) (KeepsAttributed lfa) (freshGateway stored) as := by
  have answers (g : Gateway Blob) :
      (∀ config T, AnswersTruly lfa g config T) ↔ Attributed g := by
    simp only [answersTruly_iff]
    constructor
    · intro all socketId T
      exact all { socketId := socketId, request := 0, env := .ok .Local } T
    · intro all config T
      exact all config.socketId T
  simp only [answers]
  apply throughout_iff_along (I := fun g => g.manager.Wired)
  · intro g a g' wired taken
    exact wired_socketStep wired taken
  · intro g a g' wired attributed taken
    exact attributed_step wired attributed taken
  · intro g a _ idle
    exact keepsAttributed_of_none idle
  · exact .start stored
  · rintro socketId T ⟨u, d, ⟨found, _⟩, _⟩
    cases found

/-! ## A create that fails -/

/-- A member signs in and is joined. Then a create message for another team comes in on the socket,
under another user id, and fails for want of server keys. -/
def failedCreate : List (SocketAction Team) :=
  [.act (.get 0 (.signIn "team" "alice" "socket") false), .act (.communityRead 0 true),
    .act (.keysRetrieved 0 true), .act (.resume 0 quietEnv),
    .act (.connected (onSocket 2 "socket") "alice"),
    .act (.create 1
      { userId := "bob"
        teamId := "other"
        sigChain := { id := "other", links := ∅ }
        socketId := "socket" }),
    .act (.serverKeysRetrieved 1 false)]

/-- The member is still joined on the socket, and is not signed into the team for push. -/
theorem joined_socket_refused :
    ¬ Throughout (socketStep (.plain fun _ => ["alice"]))
      (fun g => ∀ config T, AnswersTruly (.plain fun _ => ["alice"]) g config T)
      (freshGateway fun _ => some { id := "team", links := ∅ }) failedCreate := by
  intro throughout
  have answers := throughout.of_run rfl { socketId := "socket", request := 0, env := .ok .Local } "team"
  obtain ⟨u, d, isUser, ⟨found, _⟩, _⟩ :=
    answersTruly_iff.mp answers ⟨"alice", onSocket 2 "socket", ⟨rfl, rfl⟩, rfl⟩
  cases isUser
  cases found

end QuietStorage.Qps
