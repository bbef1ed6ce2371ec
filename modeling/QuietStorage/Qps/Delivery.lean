import QuietStorage.Communities.Wiring
import QuietStorage.Qps.Service

/-!
# Qps.Delivery — what a token is good for

A token that QPS has built names a device and a team, and it was built for a socket that was joined
for the team. `PushInv` says so of every token of the record, and `PushAuthorized` of every device
token that was handed to FCM. Here each service keeps the invariant: `validateUcan` finds a token
valid only if QPS has built it, `registerDevice` builds one only for a socket that was joined, and
`sendPush` and `sendBatchPush` hand over only the devices of tokens that are cleared for the request.
-/

set_option autoImplicit false

namespace QuietStorage.Qps

open Lib Communities Websocket
open Sync (AuthStatus)

section
variable {Blob : Type}

/-! ## Joined at some moment of a request -/

/-- The socket has a JOINED auth connection for the team. -/
def Joined (manager : State Blob) (socketId : SocketId) (teamId : TeamId) : Prop :=
  ∃ ref userId connection, (manager.authConnections ref).get? userId = some connection ∧
    connection.communityId = teamId ∧ connection.socketId = socketId ∧
    manager.status connection = .JOINED

namespace PushWorld

/-- At some moment from the state `since` to the state `till` it had one. -/
def JoinedBetween (w : PushWorld Blob) (socketId : SocketId) (teamId : TeamId)
    (since till : Nat) : Prop :=
  w.timeline.Sometime (Joined · socketId teamId) since till

/-- How the world grows: the manager goes on from its states, and no token is forgotten. -/
structure Grows (w w' : PushWorld Blob) : Prop where
  managers : w.timeline.Extends w'.timeline
  minted : ∀ minted ∈ w.minted, minted ∈ w'.minted

theorem Grows.refl (w : PushWorld Blob) : Grows w w := ⟨.refl _, fun _ mem => mem⟩

theorem Grows.trans {w w₁ w₂ : PushWorld Blob} (first : Grows w w₁) (second : Grows w₁ w₂) :
    Grows w w₂ :=
  ⟨first.managers.trans second.managers, fun _ mem => second.minted _ (first.minted _ mem)⟩

theorem Grows.now {w w' : PushWorld Blob} (grown : Grows w w') : w.now ≤ w'.now :=
  grown.managers.now_le

theorem JoinedBetween.mono {w w' : PushWorld Blob} {socketId : SocketId} {teamId : TeamId}
    {since till till' : Nat} (joined : w.JoinedBetween socketId teamId since till)
    (grown : Grows w w') (later : till ≤ till') : w'.JoinedBetween socketId teamId since till' :=
  Timeline.Sometime.mono joined grown.managers le_rfl later

theorem grows_moveManager (w : PushWorld Blob) (manager : State Blob) :
    Grows w (w.moveManager manager) :=
  ⟨w.timeline.extends_move manager, fun _ mem => mem⟩

end PushWorld

/-! ## What a token is good for -/

/-- The payload is one that QPS builds for a device and a team. -/
def Names (payload : UcanPayload) (deviceToken : JsValue) (teamId : TeamId) : Prop :=
  ∃ qpsDid bundleId platform,
    payload = qpsPayload qpsDid deviceToken bundleId platform (.string teamId)

/-- A payload names one device and one team. -/
theorem Names.unique {payload : UcanPayload} {deviceToken deviceToken' : JsValue}
    {teamId teamId' : TeamId} (names : Names payload deviceToken teamId)
    (names' : Names payload deviceToken' teamId') :
    deviceToken = deviceToken' ∧ teamId = teamId' := by
  obtain ⟨_, _, _, rfl⟩ := names
  obtain ⟨_, _, _, same⟩ := names'
  simp only [qpsPayload, UcanPayload.mk.injEq, List.cons.injEq, QpsPushCapability.mk.injEq,
    UcanResourcePointer.mk.injEq, Option.some.injEq, UcanFacts.mk.injEq, JsValue.string.injEq,
    true_and, and_true] at same
  obtain ⟨-, -, device, -, -, team⟩ := same
  exact ⟨device, team⟩

/-- A token for the device and the team was built before `till`, for a socket that was joined at some
moment of its request. -/
def Registered (w : PushWorld Blob) (deviceToken : JsValue) (teamId : TeamId) (till : Nat) : Prop :=
  ∃ minted ∈ w.minted, minted.time ≤ till ∧ Names minted.payload deviceToken teamId ∧
    w.JoinedBetween minted.request.socketId teamId minted.request.since minted.time

/-- **Every device token that was handed to FCM was authorized**: a request registered it for some
team with a socket that was joined for the team, and the request that handed it over came from a
socket that was joined for the same team, each at some moment of its handling. -/
def PushAuthorized (w : PushWorld Blob) : Prop :=
  ∀ handed ∈ w.handed, ∃ teamId,
    Registered w handed.deviceToken teamId handed.time ∧
      w.JoinedBetween handed.request.socketId teamId handed.request.since handed.time

/-- The request may hand the device token over. -/
def Deliverable (w : PushWorld Blob) (request : PushRequest) (deviceToken : JsValue) : Prop :=
  ∃ teamId, Registered w deviceToken teamId w.now ∧
    w.JoinedBetween request.socketId teamId request.since w.now

theorem Registered.mono {w w' : PushWorld Blob} {deviceToken : JsValue} {teamId : TeamId}
    {till till' : Nat} (registered : Registered w deviceToken teamId till) (grown : w.Grows w')
    (later : till ≤ till') : Registered w' deviceToken teamId till' := by
  obtain ⟨minted, mem, before, names, joined⟩ := registered
  exact ⟨minted, grown.minted _ mem, before.trans later, names, joined.mono grown le_rfl⟩

theorem Deliverable.mono {w w' : PushWorld Blob} {request : PushRequest} {deviceToken : JsValue}
    (deliverable : Deliverable w request deviceToken) (grown : w.Grows w') :
    Deliverable w' request deviceToken := by
  obtain ⟨teamId, registered, joined⟩ := deliverable
  exact ⟨teamId, registered.mono grown grown.now, joined.mono grown grown.now⟩

/-- The token reads as what was built; and what it was built for was checked. -/
structure Minted.Sound (config : QpsConfig) (w : PushWorld Blob) (minted : Minted) : Prop where
  reads : ∀ parsed, config.ucans.parse (.string minted.token) = .ok parsed → parsed = minted.payload
  before : minted.time ≤ w.now
  names : ∃ deviceToken teamId, Names minted.payload deviceToken teamId ∧
    w.JoinedBetween minted.request.socketId teamId minted.request.since minted.time

theorem Minted.Sound.mono {config : QpsConfig} {w w' : PushWorld Blob} {minted : Minted}
    (sound : minted.Sound config w) (grown : w.Grows w') : minted.Sound config w' := by
  obtain ⟨deviceToken, teamId, names, joined⟩ := sound.names
  exact ⟨sound.reads, sound.before.trans grown.now, deviceToken, teamId, names,
    joined.mono grown le_rfl⟩

/-- The invariant of the machine. -/
structure PushInv (config : QpsConfig) (w : PushWorld Blob) : Prop where
  wired : w.gateway.manager.Wired
  minted : ∀ minted ∈ w.minted, minted.Sound config w
  handed : PushAuthorized w

/-- What is recorded stays recorded and sound. -/
theorem PushInv.mono {config : QpsConfig} {w w' : PushWorld Blob} (inv : PushInv config w)
    (wired : w'.gateway.manager.Wired) (grown : w.Grows w') (minted : w'.minted = w.minted)
    (handed : w'.handed = w.handed) : PushInv config w' where
  wired := wired
  minted := by
    intro m mem
    rw [minted] at mem
    exact (inv.minted m mem).mono grown
  handed := by
    intro h mem
    rw [handed] at mem
    obtain ⟨teamId, registered, joined⟩ := inv.handed h mem
    exact ⟨teamId, registered.mono grown le_rfl, joined.mono grown le_rfl⟩

theorem PushWorld.grows_setGateway {w : PushWorld Blob} {gateway : Gateway Blob}
    (same : gateway.manager = w.gateway.manager) : w.Grows (w.setGateway gateway) := by
  refine ⟨?_, fun _ mem => mem⟩
  rw [PushWorld.timeline, PushWorld.timeline, PushWorld.setGateway, same]
  exact .refl _

theorem PushInv.setGateway {config : QpsConfig} {w : PushWorld Blob} (inv : PushInv config w)
    {gateway : Gateway Blob} (same : gateway.manager = w.gateway.manager) :
    PushInv config (w.setGateway gateway) :=
  inv.mono (same.symm ▸ inv.wired) (PushWorld.grows_setGateway same) rfl rfl

theorem PushInv.moveManager {config : QpsConfig} {w : PushWorld Blob} (inv : PushInv config w)
    {manager : State Blob} (wired : manager.Wired) : PushInv config (w.moveManager manager) :=
  inv.mono wired (w.grows_moveManager manager) rfl rfl

/-- A token is built for a request of a socket that was joined. -/
theorem PushInv.mint {config : QpsConfig} {w : PushWorld Blob} (inv : PushInv config w)
    {minted : Minted} (sound : minted.Sound config w) :
    PushInv config { w with minted := w.minted ++ [minted] } ∧
      w.Grows { w with minted := w.minted ++ [minted] } := by
  have grown : w.Grows { w with minted := w.minted ++ [minted] } :=
    ⟨.refl _, fun _ mem => List.mem_append_left _ mem⟩
  refine ⟨⟨inv.wired, ?_, ?_⟩, grown⟩
  · intro m mem
    rcases List.mem_append.mp mem with before | new
    · exact (inv.minted m before).mono grown
    · rw [List.mem_singleton.mp new]
      exact sound.mono grown
  · intro h mem
    obtain ⟨teamId, registered, joined⟩ := inv.handed h mem
    exact ⟨teamId, registered.mono grown le_rfl, joined.mono grown le_rfl⟩

/-- Device tokens that the request may hand over are handed over. -/
theorem PushInv.handOver {config : QpsConfig} {w : PushWorld Blob} (inv : PushInv config w)
    {request : PushRequest} {deviceTokens : List JsValue}
    (deliverable : ∀ deviceToken ∈ deviceTokens, Deliverable w request deviceToken) :
    PushInv config (w.handOver request deviceTokens) ∧
      w.Grows (w.handOver request deviceTokens) := by
  have grown : w.Grows (w.handOver request deviceTokens) := ⟨.refl _, fun _ mem => mem⟩
  refine ⟨⟨inv.wired, fun m mem => (inv.minted m mem).mono grown, ?_⟩, grown⟩
  intro h mem
  rcases List.mem_append.mp mem with before | new
  · obtain ⟨teamId, registered, joined⟩ := inv.handed h before
    exact ⟨teamId, registered.mono grown le_rfl, joined.mono grown le_rfl⟩
  · obtain ⟨deviceToken, isToken, rfl⟩ := List.mem_map.mp new
    obtain ⟨teamId, registered, joined⟩ := deliverable deviceToken isToken
    exact ⟨teamId, registered.mono grown le_rfl, joined.mono grown le_rfl⟩

/-! ## The commands -/

def pushDiscipline (config : QpsConfig) : Discipline (PushWorld Blob) :=
  .uniform (PushInv config) PushWorld.Grows .refl .trans

/-- The rules for the programs of this machine. -/
abbrev MeetsPush {α : Type} (config : QpsConfig) (t : RequestId)
    (Q : PushWorld Blob → Except HandlerError α → Prop) : PushM Blob α → PushWorld Blob → Prop :=
  Meets (pushDiscipline config) t (performPush config) Q

variable {config : QpsConfig} {t : RequestId} {w : PushWorld Blob} {request : PushRequest}

theorem acts_push {w' : PushWorld Blob} (grown : w.Grows w') :
    (pushDiscipline config).Acts t w w' :=
  ⟨grown, fun _ _ => trivial⟩

/-- A command, by what its performance leaves. -/
theorem command_meets {c : PushCommand} {Q : PushWorld Blob → Except HandlerError c.Answer → Prop}
    (performs : ∀ w₁ choice w₂ r, PushInv config w₁ → w.Grows w₁ →
      performPush config w₁ c choice = some (w₂, r) →
      PushInv config w₂ ∧ w₁.Grows w₂ ∧ ∀ w₃, PushInv config w₃ → w₂.Grows w₃ → Q w₃ r) :
    MeetsPush config t Q (Async.send c) w := by
  refine meets_send fun w₁ rely inv choice w₂ r performed => ?_
  obtain ⟨inv₂, grown, later⟩ := performs w₁ choice w₂ r inv rely.grows performed
  exact ⟨inv₂, acts_push grown, fun w₃ rely₃ inv₃ => later w₃ inv₃ rely₃.grows⟩

/-- One program after another, where nothing is asked of the end. -/
theorem first_meets {α β : Type} {Q : PushWorld Blob → Except HandlerError α → Prop}
    {m : PushM Blob α} {f : α → PushM Blob β} (inv : PushInv config w)
    (first : MeetsPush config t Q m w)
    (next : ∀ w' a, PushInv config w' → w.Grows w' → Q w' (.ok a) →
      MeetsPush config t (fun _ _ => True) (f a) w') :
    MeetsPush config t (fun _ _ => True) (m >>= f) w :=
  meets_bind (D := pushDiscipline config) inv first next fun _ _ _ _ _ => trivial

/-- A program with a handler, where nothing is asked of the end. -/
theorem handled_meets {α : Type} {m : PushM Blob α} {h : HandlerError → PushM Blob α}
    (inv : PushInv config w) (body : MeetsPush config t (fun _ _ => True) m w)
    (caught : ∀ w' e, PushInv config w' → MeetsPush config t (fun _ _ => True) (h e) w') :
    MeetsPush config t (fun _ _ => True) (MonadExcept.tryCatch m h) w :=
  meets_tryCatch (D := pushDiscipline config) inv body (fun _ _ _ _ _ => trivial)
    fun w' e inv' _ _ => caught w' e inv'

/-- What `get` returns for a team was made for it. -/
def FoundFor (teamId : JsValue) (community : Option ManagedCommunity) : Prop :=
  ∀ m, community = some m → ∃ T, teamId = .string T ∧
    ∀ ref, m.authConnections = some ref → ref.communityId = T

theorem get_meets (teamId : JsValue) :
    MeetsPush config t (fun _ r => ∀ community, r = .ok community → FoundFor teamId community)
      (Async.send (PushCommand.get teamId)) w := by
  refine command_meets fun w₁ choice w₂ r inv grown performed => ?_
  cases choice with
  | returned k =>
    dsimp only [performPush] at performed
    split at performed
    · next T T' community isTask =>
      split at performed
      · next same =>
        cases performed
        subst same
        have wired := inv.wired.setTask k .idle fun _ _ isIdle => by cases isIdle
        refine ⟨inv.moveManager wired, w₁.grows_moveManager _, ?_⟩
        rintro w₃ - - _ ⟨⟩ m rfl
        exact ⟨T, rfl, fun ref isRef => inv.wired.resolved k _ m ref isTask isRef⟩
      · cases performed
    · cases performed
  | missing =>
    cases performed
    refine ⟨inv, .refl w₁, ?_⟩
    rintro w₃ - - _ ⟨⟩ m ⟨⟩
  | fails e =>
    cases performed
    refine ⟨inv, .refl w₁, ?_⟩
    rintro w₃ - - _ ⟨⟩
  | _ => cases performed

/-- What a token reads as, if QPS has built it. -/
def BuiltAs (config : QpsConfig) (w : PushWorld Blob) (token : JsValue) (parsed : UcanPayload) :
    Prop :=
  ∃ minted ∈ w.minted, config.ucans.parse token = .ok parsed ∧ minted.payload = parsed

/-- **Unforgeable**: a token in the name of QPS that is accepted is one that QPS has built. -/
theorem validates_meets {token : JsValue} {parsed : UcanPayload} {qpsDid : String}
    (isDid : config.qpsDid = some qpsDid) (inv : PushInv config w)
    (reads : config.ucans.parse token = .ok parsed) :
    MeetsPush config t
      (fun w' r => r = .ok true → parsed.iss = qpsDid → BuiltAs config w' token parsed)
      (validates token) w := by
  have accepted : MeetsPush config t
      (fun w' r => r = .ok () → parsed.iss = qpsDid → BuiltAs config w' token parsed)
      (Async.send (PushCommand.validate token)) w := by
    refine command_meets fun w₁ choice w₂ r inv₁ grown performed => ?_
    cases choice with
    | accepts =>
      dsimp only [performPush] at performed
      split at performed
      · next genuine =>
        cases performed
        refine ⟨inv₁, .refl w₁, fun w₃ inv₃ grown₃ _ isQps => ?_⟩
        unfold PushWorld.genuine at genuine
        simp only [reads, isQps, isDid, if_true] at genuine
        split at genuine
        · next token =>
          obtain ⟨minted, mem, same⟩ := List.any_eq_true.mp genuine
          have same := of_decide_eq_true same
          refine ⟨minted, grown₃.minted _ mem, reads, ?_⟩
          rw [← same] at reads
          exact ((inv₁.minted minted mem).reads parsed reads).symm
        · cases genuine
      · cases performed
    | fails e =>
      cases performed
      exact ⟨inv₁, .refl w₁, fun w₃ _ _ isOk => by cases isOk⟩
    | _ => cases performed
  have body : MeetsPush config t
      (fun w' r => r = .ok true → parsed.iss = qpsDid → BuiltAs config w' token parsed)
      (do Async.send (PushCommand.validate token); pure true) w :=
    meets_bind (D := pushDiscipline config) inv accepted
      (fun _ _ _ _ built _ isQps => built rfl isQps) fun _ _ _ _ _ isOk => by cases isOk
  exact meets_tryCatch (D := pushDiscipline config) inv body (fun _ _ _ _ built => built)
    fun _ _ _ _ _ isOk => by cases isOk

/-! ## The services -/

/-- QPS has built the token, for the device and the team. -/
def Says (config : QpsConfig) (w : PushWorld Blob) (token deviceToken : JsValue)
    (teamId : TeamId) : Prop :=
  ∃ payload, BuiltAs config w token payload ∧ Names payload deviceToken teamId

theorem Says.mono {w' : PushWorld Blob} {token deviceToken : JsValue} {teamId : TeamId}
    (said : Says config w token deviceToken teamId) (grown : w.Grows w') :
    Says config w' token deviceToken teamId := by
  obtain ⟨payload, ⟨minted, mem, reads, same⟩, names⟩ := said
  exact ⟨payload, ⟨minted, grown.minted _ mem, reads, same⟩, names⟩

/-- A token says the same whenever it is read. -/
theorem Says.unique {w' : PushWorld Blob} {token deviceToken deviceToken' : JsValue}
    {teamId teamId' : TeamId} (said : Says config w token deviceToken teamId)
    (said' : Says config w' token deviceToken' teamId') :
    deviceToken = deviceToken' ∧ teamId = teamId' := by
  obtain ⟨payload, ⟨_, _, reads, _⟩, names⟩ := said
  obtain ⟨payload', ⟨_, _, reads', _⟩, names'⟩ := said'
  rw [reads] at reads'
  cases reads'
  exact names.unique names'

/-- What was built was registered. -/
theorem Says.registered {token deviceToken : JsValue} {teamId : TeamId}
    (said : Says config w token deviceToken teamId) (inv : PushInv config w) :
    Registered w deviceToken teamId w.now := by
  obtain ⟨_, ⟨minted, mem, -, rfl⟩, names⟩ := said
  obtain ⟨-, before, deviceToken', teamId', names', joined⟩ := inv.minted minted mem
  obtain ⟨-, rfl⟩ := names.unique names'
  exact ⟨minted, mem, before, names, joined⟩

/-- The request may use the token: its socket was joined for the token's team. -/
def Cleared (config : QpsConfig) (w : PushWorld Blob) (request : PushRequest) (token : JsValue) :
    Prop :=
  ∃ deviceToken teamId, Says config w token deviceToken teamId ∧
    w.JoinedBetween request.socketId teamId request.since w.now

theorem Cleared.mono {w' : PushWorld Blob} {token : JsValue}
    (cleared : Cleared config w request token) (grown : w.Grows w') :
    Cleared config w' request token := by
  obtain ⟨deviceToken, teamId, said, joined⟩ := cleared
  exact ⟨deviceToken, teamId, said.mono grown, joined.mono grown grown.now⟩

theorem Cleared.deliverable {token deviceToken : JsValue} {teamId : TeamId}
    (cleared : Cleared config w request token) (said : Says config w token deviceToken teamId)
    (inv : PushInv config w) : Deliverable w request deviceToken := by
  obtain ⟨deviceToken', teamId', said', joined⟩ := cleared
  obtain ⟨rfl, rfl⟩ := said.unique said'
  exact ⟨teamId, said.registered inv, joined⟩

/-- A token that is found valid says what QPS has built it for. -/
def ValidSays (config : QpsConfig) (token : JsValue) (w : PushWorld Blob)
    (r : Except HandlerError UcanValidationResult) : Prop :=
  ∀ info, r = .ok info → info.valid = true →
    ∃ teamId, info.teamId = .string teamId ∧ Says config w token info.deviceToken teamId

theorem ValidSays.of_invalid {token : JsValue} {info : UcanValidationResult}
    (invalid : info.valid = false) : ValidSays config token w (.ok info) := by
  rintro _ ⟨⟩ valid
  rw [invalid] at valid
  cases valid

/-- The body of `validateUcan`: a token in the name of QPS, and no other, is found valid. -/
theorem validateParsed_meets {qpsDid : String} (isDid : config.qpsDid = some qpsDid)
    (inv : PushInv config w) (token : JsValue) :
    MeetsPush config t (ValidSays config token) (do
      let parsed ← MonadExcept.ofExcept (config.ucans.parse token)
      let accepted ← validates token
      pure (if accepted then checkPayload qpsDid parsed
        else { valid := false, error := some "Invalid UCAN signature or structure" })) w := by
  refine meets_ofExcept_bind (fun parsed reads => ?_) fun _ _ info isOk => by cases isOk
  refine meets_bind (D := pushDiscipline config) inv (validates_meets isDid inv reads) ?_
    fun _ _ _ _ _ info isOk => by cases isOk
  intro w' accepted inv' _ built
  cases accepted with
  | false => exact ValidSays.of_invalid rfl
  | true =>
    rintro _ ⟨⟩ valid
    have isQps := iss_of_checkPayload valid
    have isBuilt := built rfl isQps
    have names : ∃ deviceToken teamId, Names parsed deviceToken teamId := by
      obtain ⟨minted, mem, -, rfl⟩ := isBuilt
      obtain ⟨deviceToken, teamId, names, -⟩ := (inv'.minted minted mem).names
      exact ⟨deviceToken, teamId, names⟩
    obtain ⟨deviceToken, teamId, qpsDid', bundleId, platform, rfl⟩ := names
    obtain rfl : qpsDid' = qpsDid := isQps
    simp only [if_true, checkPayload_qpsPayload]
    exact ⟨teamId, rfl, _, isBuilt, _, _, _, rfl⟩

theorem validateUcan_meets (inv : PushInv config w) (token : JsValue) :
    MeetsPush config t (ValidSays config token) (validateUcan config token) w := by
  unfold validateUcan
  cases isDid : config.qpsDid with
  | none => exact ValidSays.of_invalid rfl
  | some qpsDid =>
    dsimp only
    refine meets_tryCatch (D := pushDiscipline config) inv (validateParsed_meets isDid inv token)
      (fun _ _ _ _ said => said) fun _ _ _ _ _ => ?_
    exact ValidSays.of_invalid rfl

/-- A device is registered for a socket that was joined for the team. -/
theorem registerDevice_meets (roundTrips : config.ucans.RoundTrips) (inv : PushInv config w)
    {deviceToken bundleId platform : JsValue} {teamId : TeamId}
    (joined : w.JoinedBetween request.socketId teamId request.since w.now) :
    MeetsPush config t (fun _ _ => True)
      (registerDevice config request deviceToken bundleId platform (.string teamId)) w := by
  have created : MeetsPush config t (fun _ _ => True)
      (createUcan config request deviceToken bundleId platform (.string teamId)) w := by
    unfold createUcan
    split
    · trivial
    · next qpsDid isDid =>
      refine command_meets fun w₁ choice w₂ r inv₁ grown performed => ?_
      cases choice with
      | built n =>
        cases performed
        have sound : Minted.Sound config w₁
            ⟨config.ucans.build (qpsPayload qpsDid deviceToken bundleId platform (.string teamId)) n,
              qpsPayload qpsDid deviceToken bundleId platform (.string teamId), request, w₁.now⟩ :=
          ⟨roundTrips _ _, le_rfl, deviceToken, teamId, ⟨_, _, _, rfl⟩,
            joined.mono grown grown.now⟩
        obtain ⟨inv₂, grown₂⟩ := inv₁.mint sound
        exact ⟨inv₂, grown₂, fun _ _ _ => trivial⟩
      | fails e =>
        cases performed
        exact ⟨inv₁, .refl w₁, fun _ _ _ => trivial⟩
      | _ => cases performed
  refine handled_meets inv ?_ fun _ _ _ => trivial
  split
  · exact first_meets inv created fun _ _ _ _ _ => trivial
  · trivial

/-- Commands that only go out. -/
theorem send_meets_push {c : PushCommand}
    (goesOut : ∀ (w : PushWorld Blob) choice w' r,
      performPush config w c choice = some (w', r) → w' = w) :
    MeetsPush config t (fun _ _ => True) (Async.send c) w := by
  refine command_meets fun w₁ choice w₂ r inv₁ _ performed => ?_
  obtain rfl := goesOut w₁ choice w₂ r performed
  exact ⟨inv₁, .refl _, fun _ _ _ => trivial⟩

theorem sendFcm_meets {deviceToken : JsValue} (payload : PushPayload) (platform : JsValue)
    (inv : PushInv config w) (deliverable : Deliverable w request deviceToken) :
    MeetsPush config t (fun _ _ => True) (sendFcm request deviceToken payload platform) w := by
  unfold sendFcm
  split
  · next token =>
    have all : ∀ d ∈ [JsValue.string token], Deliverable w request d := by
      intro d isToken
      rw [List.mem_singleton.mp isToken]
      exact deliverable
    obtain ⟨inv', grown⟩ := inv.handOver all
    refine meets_modify_bind (D := pushDiscipline config) inv' (acts_push grown) ?_
    refine first_meets inv' (send_meets_push ?_) ?_
    · intro w choice w' r performed
      cases choice <;> cases performed
      rfl
    · intro w' answer inv' _ _
      cases answer <;> trivial
  · trivial

theorem startMulticast_meets {deviceTokens : List JsValue} (platform : JsValue)
    (inv : PushInv config w)
    (deliverable : ∀ deviceToken ∈ deviceTokens, Deliverable w request deviceToken) :
    MeetsPush config t (fun _ _ => True) (startMulticast config request deviceTokens platform) w := by
  unfold startMulticast
  split
  · obtain ⟨inv', grown⟩ := inv.handOver deliverable
    exact meets_modify_bind (D := pushDiscipline config) inv' (acts_push grown) trivial
  · trivial

theorem finishMulticast_meets (deviceTokens : List JsValue) (payload : PushPayload)
    (platform : JsValue) (started : Bool) (inv : PushInv config w) :
    MeetsPush config t (fun _ _ => True)
      (finishMulticast deviceTokens payload platform started) w := by
  unfold finishMulticast
  split
  · refine first_meets inv (send_meets_push ?_) ?_
    · intro w choice w' r performed
      cases choice <;> cases performed
      rfl
    · intro w' answer inv' _ _
      cases answer <;> trivial
  · trivial

/-- A token that the request may use sends to the device that the token names. -/
theorem sendPush_meets {token : JsValue} (title body data : JsValue) (inv : PushInv config w)
    (cleared : Cleared config w request token) :
    MeetsPush config t (fun _ _ => True) (sendPush config request token title body data) w := by
  refine first_meets inv (validateUcan_meets inv token) fun w' validation inv' grown valid => ?_
  split
  · trivial
  · next deliverable =>
    rw [Bool.or_eq_true, not_or] at deliverable
    have isValid : validation.valid = true := by simpa using deliverable.1
    obtain ⟨teamId, -, said⟩ := valid validation rfl isValid
    have sent : MeetsPush config t (fun _ _ => True)
        (sendNotification config request validation.deviceToken
          (makePayload (orElse validation.platform (.string "ios")) title body data)
          (orElse validation.platform (.string "ios"))) w' := by
      unfold sendNotification
      split
      · exact sendFcm_meets _ _ inv' ((cleared.mono grown).deliverable said inv')
      · trivial
    refine first_meets inv' sent fun w₂ result _ _ _ => ?_
    split <;> trivial

/-- The tokens of a batch, each for a device that the request may notify. -/
theorem bucketTokens_meets (ucans : List JsValue) (inv : PushInv config w)
    (cleared : ∀ ucan ∈ ucans, Cleared config w request ucan) :
    MeetsPush config t
      (fun w' r => ∀ ios android, r = .ok (ios, android) →
        (∀ d ∈ ios, Deliverable w' request d) ∧ ∀ d ∈ android, Deliverable w' request d)
      (bucketTokens config ucans) w := by
  induction ucans generalizing w with
  | nil =>
    rintro _ _ ⟨⟩
    exact ⟨fun _ mem => absurd mem List.not_mem_nil, fun _ mem => absurd mem List.not_mem_nil⟩
  | cons ucan ucans ih =>
    refine meets_bind (D := pushDiscipline config) inv (validateUcan_meets inv ucan) ?_
      fun _ _ _ _ _ _ _ isOk => by cases isOk
    intro w₁ validation inv₁ grown₁ valid
    have first := (cleared ucan List.mem_cons_self).mono grown₁
    have rest := ih inv₁ fun ucan' mem => (cleared ucan' (List.mem_cons_of_mem _ mem)).mono grown₁
    refine meets_bind (D := pushDiscipline config) inv₁ rest ?_
      fun _ _ _ _ _ _ _ isOk => by cases isOk
    rintro w₂ ⟨ios, android⟩ inv₂ grown₂ buckets
    obtain ⟨onIos, onAndroid⟩ := buckets ios android rfl
    dsimp only
    split
    · next usable =>
      obtain ⟨isValid, -⟩ := Bool.and_eq_true_iff.mp usable
      obtain ⟨teamId, -, said⟩ := valid validation rfl isValid
      have deliverable : Deliverable w₂ request validation.deviceToken :=
        (first.mono grown₂).deliverable (said.mono grown₂) inv₂
      split
      · rintro _ _ ⟨⟩
        exact ⟨onIos, List.forall_mem_cons.mpr ⟨deliverable, onAndroid⟩⟩
      · rintro _ _ ⟨⟩
        exact ⟨List.forall_mem_cons.mpr ⟨deliverable, onIos⟩, onAndroid⟩
    · rintro _ _ ⟨⟩
      exact ⟨onIos, onAndroid⟩

theorem sendBatchPush_meets {ucans : List JsValue} (title body data : JsValue)
    (inv : PushInv config w) (cleared : ∀ ucan ∈ ucans, Cleared config w request ucan) :
    MeetsPush config t (fun _ _ => True)
      (sendBatchPush config request ucans title body data) w := by
  unfold sendBatchPush
  split
  · trivial
  · split
    · trivial
    · refine first_meets inv (bucketTokens_meets ucans inv cleared) ?_
      rintro w₁ ⟨ios, android⟩ inv₁ _ buckets
      obtain ⟨onIos, onAndroid⟩ := buckets ios android rfl
      dsimp only
      split
      · trivial
      · refine first_meets inv₁ (startMulticast_meets _ inv₁ onIos) fun w₂ _ inv₂ grown₂ _ => ?_
        have onAndroid := fun d mem => (onAndroid d mem).mono grown₂
        refine first_meets inv₂ (startMulticast_meets _ inv₂ onAndroid) fun w₃ _ inv₃ _ _ => ?_
        refine first_meets inv₃ (finishMulticast_meets _ _ _ _ inv₃) fun w₄ _ inv₄ _ _ => ?_
        refine first_meets inv₄ (finishMulticast_meets _ _ _ _ inv₄) fun w₅ _ inv₅ _ _ => ?_
        split <;> trivial

end

end QuietStorage.Qps
