import QuietStorage.Websocket.Handlers

/-!
# Websocket.Captcha — what a verified captcha pays for

`handleVerifyCaptcha`, `handleGeneratePublicKeys` and `handleCreateCommunity` as the programs of one
machine: any number of messages on any sockets, interleaved at every await, with any answers of the
services. What the other handlers and the services change meanwhile is a step from outside, which
leaves the flags of the captcha alone.

A request looks at the flag of its action before the await and sets it after, so two requests of one
kind may pass the checks on one verification. `one_captcha_pays` is what holds where that does not
happen: as long as a request comes to its await only while no other of its kind on its socket stands
between the check and the mark, each verification pays for one answer of a kind at most. What carries
it is an account: the answers given and the marks that are not answered yet never exceed the
verifications, and they stay below where another request may still pass.
-/

set_option autoImplicit false

namespace QuietStorage.Websocket

open Lib Communities
open Encryption (Environment)

/-! ## The account of a socket -/

def PaidAction.event : PaidAction → WebsocketEvents
  | .GeneratePublicKeys => .GeneratePublicKeys
  | .CreateCommunity => .CreateCommunity

/-- The flag that the action sets. -/
def SocketData.used (data : SocketData) : PaidAction → Bool
  | .GeneratePublicKeys => data.usedCaptchaForKeys
  | .CreateCommunity => data.usedCaptchaForCreateCommunity

/-- A response that the captcha has paid for. -/
def Answered.PaidBy (answered : Answered) (socketId : SocketId) (action : PaidAction) : Prop :=
  answered.socketId = socketId ∧ answered.event = action.event ∧
    answered.response.status = .SUCCESS

instance (answered : Answered) (socketId : SocketId) (action : PaidAction) :
    Decidable (answered.PaidBy socketId action) :=
  inferInstanceAs (Decidable (_ ∧ _ ∧ _))

namespace Gateway

variable {Blob : Type} (s : Gateway Blob) (socketId : SocketId) (action : PaidAction)

/-- The requests of the action on the socket that were answered with SUCCESS. -/
def successes : Nat := s.answers.countP fun answered => answered.PaidBy socketId action

/-- The requests that have marked the captcha as used and are not answered. -/
def owed : Nat := s.payments.marked.countP fun entry => entry.2 = (socketId, action)

def spent : Nat := s.successes socketId action + s.owed socketId action

/-- Some request may pass the checks, or has passed them. -/
def Funded : Prop :=
  ((s.data socketId).verifiedCaptcha = true ∧ (s.data socketId).used action = false) ∨
    ∃ request, s.payments.passed request = some (socketId, action)

/-- The marks of one request. -/
def marksOf (request : RequestId) : List (RequestId × SocketId × PaidAction) :=
  s.payments.marked.filter fun entry => entry.1 = request

end Gateway

/-- The account is sound. -/
structure SoundAccount {Blob : Type} (s : Gateway Blob) : Prop where
  covered : ∀ socketId action, s.spent socketId action ≤ s.payments.verifications socketId
  funded : ∀ socketId action, s.Funded socketId action →
    s.spent socketId action < s.payments.verifications socketId
  alone : ∀ request request' paid, s.payments.passed request = some paid →
    s.payments.passed request' = some paid → request = request'

namespace SoundAccount

variable {Blob : Type} {s s' : Gateway Blob}

/-- Nothing new is spent, nothing new passes, and the flags stay. -/
theorem of_le (sound : SoundAccount s)
    (flags : ∀ socketId, (s'.data socketId).verifiedCaptcha = (s.data socketId).verifiedCaptcha ∧
      ∀ action, (s'.data socketId).used action = (s.data socketId).used action)
    (verifications : s'.payments.verifications = s.payments.verifications)
    (passed : ∀ request paid, s'.payments.passed request = some paid →
      s.payments.passed request = some paid)
    (spent : ∀ socketId action, s'.spent socketId action ≤ s.spent socketId action) :
    SoundAccount s' where
  covered := by
    intro socketId action
    rw [verifications]
    exact (spent socketId action).trans (sound.covered socketId action)
  funded := by
    intro socketId action funded
    rw [verifications]
    refine (spent socketId action).trans_lt (sound.funded socketId action ?_)
    rcases funded with ⟨isVerified, unused⟩ | ⟨request, isPassed⟩
    · rw [(flags socketId).1] at isVerified
      rw [(flags socketId).2] at unused
      exact .inl ⟨isVerified, unused⟩
    · exact .inr ⟨request, passed request _ isPassed⟩
  alone := fun request request' paid isPassed isPassed' =>
    sound.alone request request' paid (passed _ _ isPassed) (passed _ _ isPassed')

/-- A verification pays for one more. -/
theorem verified (sound : SoundAccount s) (socketId : SocketId) :
    SoundAccount (s.verified socketId) := by
  have counted : ∀ socketId', s.payments.verifications socketId' ≤
      (s.verified socketId).payments.verifications socketId' := by
    intro socketId'
    by_cases same : socketId' = socketId
    · subst same
      simp [Gateway.verified, Gateway.setData]
    · simp [Gateway.verified, Gateway.setData, Function.update_of_ne same]
  refine ⟨fun socketId' action => (sound.covered socketId' action).trans (counted socketId'), ?_,
    sound.alone⟩
  intro socketId' action funded
  by_cases same : socketId' = socketId
  · subst same
    have covered := sound.covered socketId' action
    simp only [Gateway.verified, Gateway.setData, Function.update_self]
    exact Nat.lt_succ_of_le covered
  · refine (sound.funded socketId' action ?_).trans_le (counted socketId')
    rcases funded with flags | isPassed
    · simp only [Gateway.verified, Gateway.setData, Function.update_of_ne same] at flags
      exact .inl flags
    · exact .inr isPassed

/-- A request passes on a flag that is not set, while no other of its kind has passed. -/
theorem pass (sound : SoundAccount s) {config : HandlerConfig} {action : PaidAction}
    (isVerified : (s.data config.socketId).verifiedCaptcha = true)
    (unused : (s.data config.socketId).used action = false)
    (none_ : ∀ request, s.payments.passed request ≠ some (config.socketId, action)) :
    SoundAccount (s.pass config action) := by
  have passed : ∀ request paid, (s.pass config action).payments.passed request = some paid →
      request = config.request ∧ paid = (config.socketId, action) ∨
        s.payments.passed request = some paid := by
    intro request paid isPassed
    by_cases same : request = config.request
    · subst same
      simp only [Gateway.pass, Function.update_self] at isPassed
      exact .inl ⟨rfl, (Option.some.inj isPassed).symm⟩
    · simp only [Gateway.pass, Function.update_of_ne same] at isPassed
      exact .inr isPassed
  refine ⟨sound.covered, ?_, ?_⟩
  · intro socketId action' funded
    refine sound.funded socketId action' ?_
    rcases funded with flags | ⟨request, isPassed⟩
    · exact .inl flags
    · rcases passed request _ isPassed with ⟨-, isIt⟩ | before
      · cases isIt
        exact .inl ⟨isVerified, unused⟩
      · exact .inr ⟨request, before⟩
  · intro request request' paid isPassed isPassed'
    rcases passed request _ isPassed with ⟨rfl, rfl⟩ | before
    · rcases passed request' _ isPassed' with ⟨rfl, -⟩ | before'
      · rfl
      · exact absurd before' (none_ request')
    · rcases passed request' _ isPassed' with ⟨rfl, rfl⟩ | before'
      · exact absurd before (none_ request)
      · exact sound.alone request request' paid before before'

/-- The request that has passed marks the captcha as used: no other may pass then. -/
theorem mark (sound : SoundAccount s) {config : HandlerConfig} {action : PaidAction}
    (isPassed : s.payments.passed config.request = some (config.socketId, action)) :
    SoundAccount (s.mark config action) := by
  have passed : ∀ request paid, (s.mark config action).payments.passed request = some paid →
      s.payments.passed request = some paid ∧ request ≠ config.request := by
    intro request paid later
    by_cases same : request = config.request
    · subst same
      simp [Gateway.mark, Gateway.setData] at later
    · simp only [Gateway.mark, Gateway.setData, Function.update_of_ne same] at later
      exact ⟨later, same⟩
  have owed : ∀ socketId action', (s.mark config action).spent socketId action' =
      s.spent socketId action' + if (config.socketId, action) = (socketId, action') then 1 else 0 := by
    intro socketId action'
    simp only [Gateway.spent, Gateway.successes, Gateway.owed, Gateway.mark, Gateway.setData,
      List.countP_cons, decide_eq_true_eq, Nat.add_assoc]
  have funded : ∀ socketId action', (s.mark config action).Funded socketId action' →
      s.Funded socketId action' ∧ (config.socketId, action) ≠ (socketId, action') := by
    rintro socketId action' (⟨isVerified, unused⟩ | ⟨request, later⟩)
    · by_cases same : socketId = config.socketId
      · subst same
        cases action <;> cases action' <;>
          simp_all [Gateway.mark, Gateway.setData, SocketData.used, Gateway.Funded]
      · simp only [Gateway.mark, Gateway.setData, Function.update_of_ne same] at isVerified unused
        exact ⟨.inl ⟨isVerified, unused⟩, fun isIt => same (Prod.mk.inj isIt).1.symm⟩
    · obtain ⟨before, another⟩ := passed request _ later
      refine ⟨.inr ⟨request, before⟩, fun isIt => another ?_⟩
      exact sound.alone request config.request _ before (isIt ▸ isPassed)
  refine ⟨?_, ?_, ?_⟩
  · intro socketId action'
    rw [owed]
    split
    · next isIt => exact sound.funded socketId action' (.inr ⟨_, isIt ▸ isPassed⟩)
    · exact sound.covered socketId action'
  · intro socketId action' later
    obtain ⟨before, another⟩ := funded socketId action' later
    rw [owed, if_neg another]
    exact sound.funded socketId action' before
  · intro request request' paid later later'
    exact sound.alone request request' paid (passed _ _ later).1 (passed _ _ later').1

end SoundAccount

/-- A request that comes to its response has nothing passed and nothing marked any more. -/
theorem settle_passed {Blob : Type} {s : Gateway Blob} {request request' : RequestId}
    {paid : SocketId × PaidAction}
    (later : (s.settle request).payments.passed request' = some paid) :
    s.payments.passed request' = some paid := by
  by_cases same : request' = request
  · subst same
    simp [Gateway.settle] at later
  · simpa only [Gateway.settle, Function.update_of_ne same] using later

/-- What was owed is what the request owed and what the others owe. -/
theorem owed_settle {Blob : Type} (s : Gateway Blob) (request : RequestId) (socketId : SocketId)
    (action : PaidAction) :
    s.owed socketId action = (s.marksOf request).countP (fun entry => entry.2 = (socketId, action)) +
      (s.settle request).owed socketId action := by
  have split := List.countP_eq_countP_filter_add s.payments.marked
    (fun entry => entry.2 = (socketId, action)) (fun entry => entry.1 = request)
  simpa only [Gateway.owed, Gateway.marksOf, Gateway.settle, decide_not] using split

theorem SoundAccount.settle {Blob : Type} {s : Gateway Blob} (sound : SoundAccount s)
    (request : RequestId) : SoundAccount (s.settle request) := by
  refine sound.of_le (fun _ => ⟨rfl, fun _ => rfl⟩) rfl (fun _ _ later => settle_passed later) ?_
  intro socketId action
  have owed := owed_settle s request socketId action
  simp only [Gateway.spent, owed]
  have same : (s.settle request).successes socketId action = s.successes socketId action := rfl
  omega

/-- A request that has marked the captcha may be answered with SUCCESS, any request otherwise. -/
theorem SoundAccount.answer {Blob : Type} {s : Gateway Blob} (sound : SoundAccount s)
    {request : RequestId} {answered : Answered}
    (paid : ∀ socketId action, answered.PaidBy socketId action →
      (request, socketId, action) ∈ s.payments.marked) :
    SoundAccount ((s.settle request).answer answered) := by
  refine sound.of_le (fun _ => ⟨rfl, fun _ => rfl⟩) rfl (fun _ _ later => settle_passed later) ?_
  intro socketId action
  have owed := owed_settle s request socketId action
  have successes : ((s.settle request).answer answered).successes socketId action =
      s.successes socketId action + if answered.PaidBy socketId action then 1 else 0 := by
    simp only [Gateway.successes, Gateway.answer, Gateway.settle, List.countP_cons,
      decide_eq_true_eq]
  have same : ((s.settle request).answer answered).owed socketId action =
      (s.settle request).owed socketId action := rfl
  simp only [Gateway.spent, successes, same, owed]
  split
  · next isPaid =>
    have marked : 0 < (s.marksOf request).countP fun entry => entry.2 = (socketId, action) := by
      refine List.countP_pos_iff.mpr ⟨_, List.mem_filter.mpr ⟨paid socketId action isPaid, ?_⟩, ?_⟩
      · simp
      · simp
    omega
  · omega

/-! ## The machine -/

/-- One message of a client. `action` is what it asks for, or nothing for a verification. -/
structure CaptchaRequest where
  socketId : SocketId
  action : Option PaidAction
  message : JsValue
  callback : JsValue

/-- What else changes: the manager, the clock, the services, and whom a socket is attributed to. -/
structure Elsewhere (Blob : Type) where
  manager : State Blob
  now : Int
  calls : (c : ServiceCall) → Except HandlerError (c.Answer Blob)
  teamId : SocketId → JsValue
  userId : SocketId → JsValue
  attributionSource : SocketId → Option WebsocketEvents

section
variable {Blob : Type} (env : Except HandlerError Environment)

def CaptchaRequest.program (t : RequestId) (request : CaptchaRequest) : GatewayM Blob Unit :=
  let config : HandlerConfig := ⟨request.socketId, t, env⟩
  match request.action with
  | none => handleVerifyCaptcha config request.message request.callback
  | some .GeneratePublicKeys => handleGeneratePublicKeys config request.message request.callback
  | some .CreateCommunity => handleCreateCommunity config request.message request.callback

def Gateway.elsewhere (s : Gateway Blob) (event : Elsewhere Blob) : Gateway Blob :=
  { s with
    manager := event.manager
    now := event.now
    calls := event.calls
    data := fun socketId => { s.data socketId with
      teamId := event.teamId socketId
      userId := event.userId socketId
      attributionSource := event.attributionSource socketId } }

abbrev CaptchaState (Blob : Type) :=
  AsyncState (Gateway Blob) Command Command.Answer HandlerError

/-- No message was sent and no captcha verified. -/
def CaptchaState.fresh (manager : State Blob) (now : Int)
    (calls : (c : ServiceCall) → Except HandlerError (c.Answer Blob)) : CaptchaState Blob :=
  .start
    { data := fun _ => {}
      manager := manager
      now := now
      calls := calls
      answers := []
      payments := ⟨fun _ => 0, fun _ => none, []⟩ }

/-- A request of the action comes to its await from here: the captcha is verified and not used by the
action, and the message is one that the handler can read. -/
def CaptchaRequest.Passes (s : Gateway Blob) (request : CaptchaRequest) (action : PaidAction) :
    Prop :=
  request.action = some action ∧ (s.data request.socketId).verifiedCaptcha = true ∧
    (s.data request.socketId).used action = false ∧
    match action with
    | .GeneratePublicKeys => request.message.Has "payload"
    | .CreateCommunity =>
      ∃ community teamId teamKeyring userId,
        createPayload request.message = .ok (community, teamId, teamKeyring, userId) ∧
        let attributed :=
          setSocketAttribution (s.data request.socketId) teamId userId .CreateCommunity
        attributed.2 = true → formatSocketAttribution attributed.1 = .ok ()

/-- The account is sound; what a request has passed and marked is its own. -/
def captchaDiscipline : Discipline (Gateway Blob) where
  Inv := SoundAccount
  Grows := fun _ _ => True
  Keeps := fun t s s' => s'.payments.passed t = s.payments.passed t ∧ s'.marksOf t = s.marksOf t
  Idle := fun t s => s.payments.passed t = none ∧ s.marksOf t = []
  refl := fun _ => trivial
  trans := fun _ _ => trivial
  keeps_refl := fun _ _ => ⟨rfl, rfl⟩
  keeps_trans := fun first second => ⟨second.1.trans first.1, second.2.trans first.2⟩
  idle_keeps := fun idle keeps => ⟨keeps.1.trans idle.1, keeps.2.trans idle.2⟩

variable {t : RequestId} {s : Gateway Blob}

/-- A body that ends well has settled; the catch block settles otherwise. -/
def Settled (t : RequestId) (s : Gateway Blob) (r : Except HandlerError Unit) : Prop :=
  r = .ok () → captchaDiscipline.Idle t s

/-- New data of a socket with the old flags. -/
theorem SoundAccount.setData (sound : SoundAccount s) {socketId : SocketId} {data : SocketData}
    (flags : data.verifiedCaptcha = (s.data socketId).verifiedCaptcha ∧
      ∀ action, data.used action = (s.data socketId).used action) :
    SoundAccount (s.setData socketId data) := by
  refine sound.of_le (fun socketId' => ?_) rfl (fun _ _ later => later) fun _ _ => le_rfl
  by_cases same : socketId' = socketId
  · subst same
    simpa only [Gateway.setData, Function.update_self] using flags
  · simp only [Gateway.setData, Function.update_of_ne same, implies_true, and_self]

theorem SoundAccount.elsewhere (sound : SoundAccount s) (event : Elsewhere Blob) :
    SoundAccount (s.elsewhere event) :=
  sound.of_le (fun _ => ⟨rfl, fun action => by cases action <;> rfl⟩) rfl (fun _ _ later => later)
    fun _ _ => le_rfl

end

end QuietStorage.Websocket
