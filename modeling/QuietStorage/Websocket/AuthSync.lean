import QuietStorage.Communities.LetIn
import QuietStorage.Websocket.Handlers

/-!
# Websocket.AuthSync — who speaks in a handshake

The LFA handshake of a connection runs over auth-sync messages, and `handleAuthSync` passes a message on
to the connection that it names. Whoever joins a team does so by this handshake, so it matters whose
messages a connection is given: only those of its own socket, as `passes_by_own_handshake` shows. With it
`Communities.only_members_pass` goes back to what was sent: whoever passes the check of a message has
sent, over this very socket, the messages that LFA took for the handshake of a member.

`authSyncTarget` is what the handler passes on once `get` has answered, and `handleAuthSync_advance` that
it is so. `authSyncStep` is the machine of the manager with any number of these handlers beside it. LFA is
a parameter: `completes` says whether the messages that a connection was given, in their order,
authenticate a member.
-/

set_option autoImplicit false

namespace QuietStorage.Websocket

open Lib Communities

variable {Blob : Type}

/-! ## The handler -/

/-- What `handleAuthSync` reads of a message before it awaits: the payload, the team and the user. -/
def authSyncPayload (message : JsValue) : Except TypeError (JsValue × JsValue × JsValue) := do
  let payload ← message.property "payload"
  let teamId ← payload.property "teamId"
  let userId ← payload.property "userId"
  pure (payload, teamId, userId)

theorem authSyncPayload_eq_ok {message payload teamId userId : JsValue} :
    authSyncPayload message = .ok (payload, teamId, userId) ↔
      message.property "payload" = .ok payload ∧ payload.property "teamId" = .ok teamId ∧
        payload.property "userId" = .ok userId := by
  unfold authSyncPayload
  cases isPayload : message.property "payload" with
  | error e => simp [bind, Except.bind]
  | ok payload' =>
    cases isTeam : payload'.property "teamId" with
    | error e =>
      simp only [bind, Except.bind, isTeam, reduceCtorEq, Except.ok.injEq, false_iff, not_and]
      rintro rfl isTeam'
      cases isTeam.symm.trans isTeam'
    | ok teamId' =>
      cases isUser : payload'.property "userId" with
      | error e =>
        simp only [bind, Except.bind, isTeam, isUser, reduceCtorEq, Except.ok.injEq, false_iff,
          not_and]
        rintro rfl _ isUser'
        cases isUser.symm.trans isUser'
      | ok userId' =>
        simp only [bind, Except.bind, isTeam, isUser, pure, Except.pure, Except.ok.injEq,
          Prod.mk.injEq]
        constructor
        · rintro ⟨rfl, rfl, rfl⟩
          exact ⟨rfl, isTeam, isUser⟩
        · rintro ⟨rfl, isTeam', isUser'⟩
          cases isTeam.symm.trans isTeam'
          cases isUser.symm.trans isUser'
          exact ⟨rfl, rfl, rfl⟩

/-- What `handleAuthSync` passes on to LFA once `get` has answered: the content of the message, if the
user has a connection in the community and it is one of the socket. -/
def authSyncTarget (fromString : JsValue → Except HandlerError Bytes) (manager : State Blob)
    (socketId : SocketId) (payload : JsValue) (userId : UserId)
    (community : Option ManagedCommunity) : Option (AuthConnection × Bytes) :=
  match community.bind fun community => manager.connectionOf community userId with
  | none => none
  | some authConnection =>
    if authConnection.socketId ≠ socketId then none
    else
      match payload.property "message" with
      | .error _ => none
      | .ok text =>
        match fromString text with
        | .error _ => none
        | .ok decoded => some (authConnection, decoded)

/-- The state after the handler. What `deliver` throws is logged. -/
def afterAuthSync (s : Gateway Blob) : Option (AuthConnection × Bytes) → Gateway Blob
  | none => s
  | some (authConnection, decoded) =>
    match s.calls (.deliver authConnection decoded) with
    | .error _ => s
    | .ok manager => { s with manager := manager }

/-- **`handleAuthSync`**: it awaits the community that the message names, and passes on what
`authSyncTarget` says, in the state that it then finds. -/
theorem handleAuthSync_advance (config : HandlerConfig) {message payload : JsValue} {T : TeamId}
    {userId : UserId} (reads : authSyncPayload message = .ok (payload, .string T, .string userId))
    (s : Gateway Blob) :
    ∃ k, (handleAuthSync config message).advance s = (s, .waiting (Command.get (.string T)) k) ∧
      (∀ e s', (k (.error e)).advance s' = (s', .done (.ok ()))) ∧
      ∀ community s', (k (.ok community)).advance s' =
        (afterAuthSync s' (authSyncTarget (fun text => s'.calls (.fromString text)) s'.manager
          config.socketId payload userId community), .done (.ok ())) := by
  obtain ⟨isPayload, isTeam, isUser⟩ := authSyncPayload_eq_ok.mp reads
  unfold handleAuthSync
  simp only [advance_tryCatch, advance_bind, isPayload, js, advance_ofExcept, Except.mapError, isTeam,
    isUser, advance_send]
  refine ⟨_, rfl, fun e s' => ?_, fun community s' => ?_⟩
  · simp only [advance_tryCatch, advance_bind, Async.advance, advance_pure]
  · simp only [advance_tryCatch, advance_bind, Async.advance]
    cases community with
    | none =>
      simp only [Option.isNone_none, if_true, advance_throw, advance_pure, authSyncTarget,
        Option.bind_none, afterAuthSync]
    | some m =>
      simp only [Option.isNone_some, Bool.false_eq_true, if_false, advance_bind, advance_get,
        Gateway.connectionOf, authSyncTarget, Option.bind_some]
      cases s'.manager.connectionOf m userId with
      | none => simp only [advance_pure, afterAuthSync]
      | some authConnection =>
        by_cases own : authConnection.socketId = config.socketId
        · simp only [own, ne_eq, not_true_eq_false, if_false]
          cases payload.property "message" with
          | error e => simp only [advance_bind, advance_ofExcept, advance_pure, afterAuthSync]
          | ok text =>
            simp only [advance_bind, advance_ofExcept, call, advance_get]
            cases decodes : s'.calls (.fromString text) with
            | error e => simp only [advance_pure, afterAuthSync]
            | ok decoded =>
              -- The log line of a large message prints the two ids, which are strings.
              have printed : (do
                  discard (JsValue.string userId).text
                  discard (JsValue.string T).text : Except TypeError Unit) = .ok () := rfl
              simp only [printed]
              by_cases isLarge : AUTH_SYNC_LARGE_PAYLOAD_BYTES ≤ decoded.length
              all_goals
                simp only [isLarge, if_true, if_false, advance_bind, advance_ofExcept, advance_get]
                cases delivers : s'.calls (.deliver authConnection decoded) with
                | error e => simp only [advance_pure, afterAuthSync, delivers]
                | ok manager => simp only [advance_modify, afterAuthSync, delivers]
        · simp only [ne_eq, own, not_false_eq_true, if_true, advance_pure, afterAuthSync]

/-- A message that cannot be read that far ends its handler at once. -/
theorem handleAuthSync_unreadable (config : HandlerConfig) {message : JsValue} {e : TypeError}
    (unreadable : authSyncPayload message = .error e) (s : Gateway Blob) :
    (handleAuthSync config message).advance s = (s, .done (.ok ())) := by
  unfold handleAuthSync
  cases isPayload : message.property "payload" with
  | error e =>
    simp only [advance_tryCatch, advance_bind, js, Except.mapError, advance_ofExcept, advance_pure]
  | ok payload =>
    cases isTeam : payload.property "teamId" with
    | error e =>
      simp only [advance_tryCatch, advance_bind, js, isTeam, Except.mapError, advance_ofExcept,
        advance_pure]
    | ok teamId =>
      cases isUser : payload.property "userId" with
      | error e =>
        simp only [advance_tryCatch, advance_bind, js, isTeam, isUser, Except.mapError,
          advance_ofExcept, advance_pure]
      | ok userId =>
        have readable := authSyncPayload_eq_ok.mpr ⟨isPayload, isTeam, isUser⟩
        cases readable.symm.trans unreadable

/-! ## The machine -/

/-- An auth-sync message, and the socket that it came over. -/
structure AuthSyncMessage where
  socketId : SocketId
  message : JsValue

/-- What LFA was given for a connection, and the number of the message that it was in. -/
structure Delivery where
  connection : AuthConnection
  bytes : Bytes
  number : Nat

/-- The manager, with the handlers of the auth-sync messages. -/
structure AuthSyncs (Blob : Type) where
  state : State Blob
  /-- The messages that have arrived, the oldest first. -/
  arrived : List AuthSyncMessage := []
  /-- The handlers that await `get`: the number of the message, and the message. -/
  waiting : TaskId → Option (Nat × AuthSyncMessage) := fun _ => none
  /-- The oldest first. -/
  delivered : List Delivery := []

inductive AuthSyncAction (Blob : Type) where
  | act (a : Action Blob)
  /-- A message arrives, and its handler asks for the community. -/
  | arrive (k : TaskId) (message : AuthSyncMessage)
  /-- `get` has returned, and the handler goes on. -/
  | goOn (k : TaskId)

namespace AuthSyncs

/-- What LFA was given for the connection. -/
def given (w : AuthSyncs Blob) (c : AuthConnection) : List Delivery :=
  w.delivered.filter fun delivery => delivery.connection = c

/-- The manager has taken a step. A handler whose `get` has thrown has ended. -/
def moveTo (w : AuthSyncs Blob) (state : State Blob) : AuthSyncs Blob :=
  { w with
    state := state
    waiting := fun k =>
      match state.tasks k with
      | .idle => none
      | _ => w.waiting k }

/-- The handler of a message for the team goes on. -/
def deliver (w : AuthSyncs Blob) (fromString : JsValue → Except HandlerError Bytes) (i : Nat)
    (m : AuthSyncMessage) (T : TeamId) (community : Option ManagedCommunity) : AuthSyncs Blob :=
  match authSyncPayload m.message with
  | .ok (payload, .string T', .string userId) =>
    if T' = T then
      match authSyncTarget fromString w.state m.socketId payload userId community with
      | none => w
      | some (authConnection, decoded) =>
        { w with delivered := w.delivered ++ [⟨authConnection, decoded, i⟩] }
    else w
  | _ => w

end AuthSyncs

section
variable (lfa : Lfa Blob) (fromString : JsValue → Except HandlerError Bytes)
  (completes : AuthConnection → List Bytes → UserId → Bool)

/-- LFA reports a member only if it has authenticated it by the messages that it was given, and a handler
does not go on in another's place. -/
def AuthSyncs.allows (w : AuthSyncs Blob) : Action Blob → Bool
  | .connected c p => completes c ((w.given c).map (·.bytes)) p
  | .resume k _ => (w.waiting k).isNone
  | _ => true

/-- One action, `none` if it is not enabled. A message whose team is not a string has no community. -/
def authSyncStep (w : AuthSyncs Blob) : AuthSyncAction Blob → Option (AuthSyncs Blob)
  | .act a => if w.allows completes a then (step lfa w.state a).map w.moveTo else none
  | .arrive k m =>
    match authSyncPayload m.message with
    | .ok (_, .string T, _) =>
      (step lfa w.state (.get k (.reader T) false)).map fun state =>
        { w with
          state := state
          arrived := w.arrived ++ [m]
          waiting := Function.update w.waiting k (some (w.arrived.length, m)) }
    | _ => some { w with arrived := w.arrived ++ [m] }
  | .goOn k =>
    match w.waiting k, w.state.tasks k with
    | some (i, m), .resolved (.reader T) community =>
      let w := w.deliver fromString i m T community
      (step lfa w.state (.resume k { closes := false, dies := false, now := 0 })).map fun state =>
        { w with state := state, waiting := Function.update w.waiting k none }
    | _, _ => none

end

/-- What was delivered is the content of a message that came over the connection's own socket, and that
named its team and its user. -/
def SentBy (fromString : JsValue → Except HandlerError Bytes) (arrived : List AuthSyncMessage)
    (d : Delivery) : Prop :=
  ∃ m payload text, arrived[d.number]? = some m ∧ m.socketId = d.connection.socketId ∧
    authSyncPayload m.message =
      .ok (payload, .string d.connection.communityId, .string d.connection.userId) ∧
    payload.property "message" = .ok text ∧ fromString text = .ok d.bytes

section
variable {lfa : Lfa Blob} {fromString : JsValue → Except HandlerError Bytes}
  {completes : AuthConnection → List Bytes → UserId → Bool}

/-! ## What is delivered -/

theorem authSyncTarget_eq_some {manager : State Blob} {socketId : SocketId} {payload : JsValue}
    {userId : UserId} {community : Option ManagedCommunity} {c : AuthConnection} {decoded : Bytes} :
    authSyncTarget fromString manager socketId payload userId community = some (c, decoded) ↔
      ∃ m text, community = some m ∧ manager.connectionOf m userId = some c ∧ c.socketId = socketId ∧
        payload.property "message" = .ok text ∧ fromString text = .ok decoded := by
  unfold authSyncTarget
  constructor
  · intro isTarget
    split at isTarget
    · cases isTarget
    · next connection found =>
      obtain ⟨m, isSome, registered⟩ := Option.bind_eq_some_iff.mp found
      split at isTarget
      · cases isTarget
      · next own =>
        split at isTarget
        · cases isTarget
        · next text reads =>
          split at isTarget
          · cases isTarget
          · next decodes =>
            cases isTarget
            exact ⟨m, text, isSome, registered, not_not.mp own, reads, decodes⟩
  · rintro ⟨m, text, rfl, registered, own, reads, decodes⟩
    simp only [Option.bind_some, registered, own, ne_eq, not_true_eq_false, if_false, reads, decodes]

namespace AuthSyncs

variable (w : AuthSyncs Blob) (i : Nat) (m : AuthSyncMessage) (T : TeamId)
  (community : Option ManagedCommunity)

variable (fromString) in
/-- A handler delivers nothing, or the content of its message to the connection that it names, which is
one of its socket. -/
theorem deliver_spec :
    w.deliver fromString i m T community = w ∨
      ∃ c bytes payload userId community' text,
        w.deliver fromString i m T community =
          { w with delivered := w.delivered ++ [⟨c, bytes, i⟩] } ∧
        authSyncPayload m.message = .ok (payload, .string T, .string userId) ∧
        community = some community' ∧ w.state.connectionOf community' userId = some c ∧
        c.socketId = m.socketId ∧ payload.property "message" = .ok text ∧
        fromString text = .ok bytes := by
  unfold deliver
  split
  · next payload T' userId reads =>
    split
    · next same =>
      subst same
      split
      · exact .inl rfl
      · next c bytes isTarget =>
        obtain ⟨community', text, isSome, registered, own, readsText, decodes⟩ :=
          authSyncTarget_eq_some.mp isTarget
        exact .inr ⟨c, bytes, payload, userId, community', text, rfl, reads, isSome, registered, own,
          readsText, decodes⟩
    · exact .inl rfl
  · exact .inl rfl

@[simp] theorem deliver_state : (w.deliver fromString i m T community).state = w.state := by
  rcases w.deliver_spec fromString i m T community with same | ⟨_, _, _, _, _, _, same, -⟩
  · rw [same]
  · rw [same]

@[simp] theorem deliver_waiting : (w.deliver fromString i m T community).waiting = w.waiting := by
  rcases w.deliver_spec fromString i m T community with same | ⟨_, _, _, _, _, _, same, -⟩
  · rw [same]
  · rw [same]

end AuthSyncs

theorem SentBy.mono {arrived : List AuthSyncMessage} {d : Delivery} (sent : SentBy fromString arrived d)
    (m : AuthSyncMessage) : SentBy fromString (arrived ++ [m]) d := by
  obtain ⟨m', payload, text, isMessage, rest⟩ := sent
  refine ⟨m', payload, text, ?_, rest⟩
  rw [List.getElem?_append_left (List.getElem?_eq_some_iff.mp isMessage).1]
  exact isMessage

/-- The invariant of the deliveries: each is the content of a message of its own socket, and no message is
delivered twice, since a handler that waits has not delivered its message and no two wait with one. -/
structure AuthSyncInv (fromString : JsValue → Except HandlerError Bytes) (w : AuthSyncs Blob) :
    Prop where
  wired : w.state.Wired
  waiting : ∀ k i m, w.waiting k = some (i, m) →
    w.arrived[i]? = some m ∧ ∀ d ∈ w.delivered, d.number ≠ i
  distinct : ∀ k k' i m m', w.waiting k = some (i, m) → w.waiting k' = some (i, m') → k = k'
  sent : ∀ d ∈ w.delivered, SentBy fromString w.arrived d
  once : (w.delivered.map (·.number)).Nodup

namespace AuthSyncInv

/-- The manager takes a step, and handlers may end. -/
theorem moveTo {w : AuthSyncs Blob} (inv : AuthSyncInv fromString w) {state : State Blob}
    (wired : state.Wired) : AuthSyncInv fromString (w.moveTo state) := by
  have before {k : TaskId} {i : Nat} {m : AuthSyncMessage}
      (waits : (w.moveTo state).waiting k = some (i, m)) : w.waiting k = some (i, m) := by
    unfold AuthSyncs.moveTo at waits
    dsimp only at waits
    split at waits
    · cases waits
    · exact waits
  refine ⟨wired, ?_, ?_, inv.sent, inv.once⟩
  · exact fun k i m waits => inv.waiting k i m (before waits)
  · exact fun k k' i m m' waits waits' => inv.distinct k k' i m m' (before waits) (before waits')

/-- A message arrives, and its handler may wait. -/
theorem arrive {w : AuthSyncs Blob} (inv : AuthSyncInv fromString w) {state : State Blob}
    (wired : state.Wired) (m : AuthSyncMessage) {waiting : TaskId → Option (Nat × AuthSyncMessage)}
    (starts : waiting = w.waiting ∨
      ∃ k, waiting = Function.update w.waiting k (some (w.arrived.length, m))) :
    AuthSyncInv fromString
      { w with state := state, arrived := w.arrived ++ [m], waiting := waiting } := by
  have older {k : TaskId} {i : Nat} {m' : AuthSyncMessage} (waits : w.waiting k = some (i, m')) :
      i < w.arrived.length :=
    (List.getElem?_eq_some_iff.mp (inv.waiting k i m' waits).1).1
  have fresh : ∀ d ∈ w.delivered, d.number ≠ w.arrived.length := by
    intro d mem
    obtain ⟨m', payload, text, isMessage, -⟩ := inv.sent d mem
    exact (List.getElem?_eq_some_iff.mp isMessage).1.ne
  have kept {k : TaskId} {i : Nat} {m' : AuthSyncMessage} (waits : w.waiting k = some (i, m')) :
      (w.arrived ++ [m])[i]? = some m' ∧ ∀ d ∈ w.delivered, d.number ≠ i := by
    obtain ⟨isMessage, undelivered⟩ := inv.waiting k i m' waits
    refine ⟨?_, undelivered⟩
    rw [List.getElem?_append_left (older waits)]
    exact isMessage
  have sent : ∀ d ∈ w.delivered, SentBy fromString (w.arrived ++ [m]) d :=
    fun d mem => (inv.sent d mem).mono m
  rcases starts with rfl | ⟨k₀, rfl⟩
  · exact ⟨wired, fun k i m' waits => kept waits, inv.distinct, sent, inv.once⟩
  · refine ⟨wired, ?_, ?_, sent, inv.once⟩
    · intro k i m' waits
      dsimp only at waits
      rw [Function.update_apply] at waits
      split at waits
      · cases waits
        exact ⟨List.getElem?_concat_length, fresh⟩
      · exact kept waits
    · intro k k' i m' m'' waits waits'
      dsimp only at waits waits'
      rw [Function.update_apply] at waits waits'
      split at waits
      · next same =>
        cases waits
        split at waits'
        · next same' => exact same.trans same'.symm
        · exact absurd (older waits') (Nat.lt_irrefl _)
      · split at waits'
        · cases waits'
          exact absurd (older waits) (Nat.lt_irrefl _)
        · exact inv.distinct k k' i m' m'' waits waits'

/-- A handler goes on. -/
theorem goOn {w : AuthSyncs Blob} (inv : AuthSyncInv fromString w) {state : State Blob}
    (wired : state.Wired) {k : TaskId} {i : Nat} {m : AuthSyncMessage}
    (waits : w.waiting k = some (i, m)) {T : TeamId} {community : Option ManagedCommunity}
    (resolved : w.state.tasks k = .resolved (.reader T) community) :
    AuthSyncInv fromString
      { w.deliver fromString i m T community with
        state := state
        waiting := Function.update w.waiting k none } := by
  obtain ⟨isMessage, undelivered⟩ := inv.waiting k i m waits
  have before {k' : TaskId} {entry : Nat × AuthSyncMessage}
      (waits' : Function.update w.waiting k none k' = some entry) :
      k' ≠ k ∧ w.waiting k' = some entry := by
    rw [Function.update_apply] at waits'
    split at waits'
    · cases waits'
    · next other => exact ⟨other, waits'⟩
  have distinct : ∀ k₁ k₂ j m₁ m₂, Function.update w.waiting k none k₁ = some (j, m₁) →
      Function.update w.waiting k none k₂ = some (j, m₂) → k₁ = k₂ := by
    intro k₁ k₂ j m₁ m₂ waits₁ waits₂
    exact inv.distinct k₁ k₂ j m₁ m₂ (before waits₁).2 (before waits₂).2
  rcases w.deliver_spec fromString i m T community with
    nothing | ⟨c, bytes, payload, userId, community', text, isNew, reads, rfl, registered, own, readsText,
      decodes⟩
  · rw [nothing]
    refine ⟨wired, ?_, distinct, inv.sent, inv.once⟩
    exact fun k' j m' waits' => inv.waiting k' j m' (before waits').2
  · rw [isNew]
    obtain ⟨ref, isRef, inMap⟩ := Option.bind_eq_some_iff.mp registered
    obtain ⟨user, isCommunity, -⟩ := inv.wired.mapped ref userId c inMap
    have isTeam : c.communityId = T :=
      isCommunity.trans (inv.wired.resolved k (.reader T) community' ref resolved isRef)
    have sentNow : SentBy fromString w.arrived ⟨c, bytes, i⟩ := by
      refine ⟨m, payload, text, isMessage, own.symm, ?_, readsText, decodes⟩
      rw [reads, isTeam, user]
    refine ⟨wired, ?_, distinct, ?_, ?_⟩
    · intro k' j m' waits'
      obtain ⟨other, waiting⟩ := before waits'
      obtain ⟨isMessage', undelivered'⟩ := inv.waiting k' j m' waiting
      refine ⟨isMessage', fun d mem => ?_⟩
      rcases List.mem_append.mp mem with mem | mem
      · exact undelivered' d mem
      · rw [List.mem_singleton.mp mem]
        rintro rfl
        exact other (inv.distinct k' k i m' m waiting waits)
    · intro d mem
      rcases List.mem_append.mp mem with mem | mem
      · exact inv.sent d mem
      · rw [List.mem_singleton.mp mem]
        exact sentNow
    · rw [List.map_append, List.nodup_append]
      refine ⟨inv.once, List.nodup_singleton _, ?_⟩
      intro n mem n' mem'
      obtain ⟨d, isDelivered, rfl⟩ := List.mem_map.mp mem
      rw [List.mem_singleton.mp mem']
      exact undelivered d isDelivered

end AuthSyncInv

/-! ## The manager's part of a run -/

/-- What the manager does: the `get` of a handler is a task of the manager, as any other. -/
def AuthSyncAction.acts : AuthSyncAction Blob → List (Action Blob)
  | .act a => [a]
  | .arrive k m =>
    match authSyncPayload m.message with
    | .ok (_, .string T, _) => [.get k (.reader T) false]
    | _ => []
  | .goOn k => [.resume k { closes := false, dies := false, now := 0 }]

/-- A step of the machine is one of the manager, of the kind that the action says, or none. -/
theorem authSyncStep_acts {w w' : AuthSyncs Blob} {b : AuthSyncAction Blob}
    (stepped : authSyncStep lfa fromString completes w b = some w') :
    run (step lfa) w.state b.acts = some w'.state := by
  cases b with
  | act a =>
    dsimp only [authSyncStep] at stepped
    split at stepped
    · obtain ⟨state, taken, rfl⟩ := Option.map_eq_some_iff.mp stepped
      exact run_cons_eq_some.mpr ⟨state, taken, rfl⟩
    · cases stepped
  | arrive k m =>
    dsimp only [authSyncStep] at stepped
    dsimp only [AuthSyncAction.acts]
    split at stepped
    · obtain ⟨state, taken, rfl⟩ := Option.map_eq_some_iff.mp stepped
      exact run_cons_eq_some.mpr ⟨state, taken, rfl⟩
    · cases stepped
      rfl
  | goOn k =>
    dsimp only [authSyncStep] at stepped
    split at stepped
    · obtain ⟨state, taken, rfl⟩ := Option.map_eq_some_iff.mp stepped
      rw [AuthSyncs.deliver_state] at taken
      exact run_cons_eq_some.mpr ⟨state, taken, rfl⟩
    · cases stepped

theorem authSyncInv_step {w w' : AuthSyncs Blob} {b : AuthSyncAction Blob}
    (inv : AuthSyncInv fromString w) (stepped : authSyncStep lfa fromString completes w b = some w') :
    AuthSyncInv fromString w' := by
  cases b with
  | act a =>
    dsimp only [authSyncStep] at stepped
    split at stepped
    · obtain ⟨state, taken, rfl⟩ := Option.map_eq_some_iff.mp stepped
      exact inv.moveTo (wired_step inv.wired taken)
    · cases stepped
  | arrive k m =>
    dsimp only [authSyncStep] at stepped
    split at stepped
    · obtain ⟨state, taken, rfl⟩ := Option.map_eq_some_iff.mp stepped
      exact inv.arrive (wired_step inv.wired taken) m (.inr ⟨k, rfl⟩)
    · cases stepped
      exact inv.arrive inv.wired m (.inl rfl)
  | goOn k =>
    dsimp only [authSyncStep] at stepped
    split at stepped
    · next waits resolved =>
      obtain ⟨state, taken, rfl⟩ := Option.map_eq_some_iff.mp stepped
      rw [AuthSyncs.deliver_state] at taken
      rw [AuthSyncs.deliver_waiting]
      exact inv.goOn (wired_step inv.wired taken) waits resolved
    · cases stepped

/-! ## The handshakes -/

section
variable (lfa : Lfa Blob) (fromString : JsValue → Except HandlerError Bytes)
  (completes : AuthConnection → List Bytes → UserId → Bool)

/-- In the run the member `p` completed the handshake of the connection, on the chain that was held for
its community, by the messages that LFA had been given for it: each the content of another message that
came over the connection's own socket. The connection has been joined since. -/
def OwnHandshake (stored : TeamId → Option Blob) (done : List (AuthSyncAction Blob))
    (c : AuthConnection) (p : UserId) : Prop :=
  Since (authSyncStep lfa fromString completes) { state := .start stored } done (.act (.connected c p))
    (fun before w => completes c ((w.given c).map (·.bytes)) p = true ∧
      ((w.given c).map (·.number)).Nodup ∧ (∀ d ∈ w.given c, SentBy fromString w.arrived d) ∧
      p ∈ lfa.members (w.state.team c.sigChain) ∧
      Held lfa stored (before.flatMap AuthSyncAction.acts) c.communityId c.sigChain)
    (fun w => w.state.status c = .JOINED)

end

/-- A connection that is joined was joined before, or the step is its handshake. -/
theorem joined_authSyncStep {w w' : AuthSyncs Blob} {b : AuthSyncAction Blob} (wired : w.state.Wired)
    (stepped : authSyncStep lfa fromString completes w b = some w') {c : AuthConnection}
    (joined : w'.state.status c = .JOINED) :
    w.state.status c = .JOINED ∨ ∃ p, b = .act (.connected c p) ∧ c ∈ w.state.started ∧
      p ∈ lfa.members (w.state.team c.sigChain) := by
  have acted := authSyncStep_acts stepped
  have other {a : Action Blob} (same : run (step lfa) w.state [a] = some w'.state)
      (notConnected : ∀ p, a ≠ .connected c p) : w.state.status c = .JOINED := by
    obtain ⟨state, taken, isState⟩ := run_cons_eq_some.mp same
    cases isState
    rcases joined_step wired taken joined with ⟨before, -⟩ | ⟨p, isConnected, -⟩
    · exact before
    · exact absurd isConnected (notConnected p)
  cases b with
  | act a =>
    obtain ⟨state, taken, isState⟩ := run_cons_eq_some.mp acted
    cases isState
    rcases joined_step wired taken joined with ⟨before, -⟩ | ⟨p, rfl, -, started, member⟩
    · exact .inl before
    · exact .inr ⟨p, rfl, started, member⟩
  | arrive k m =>
    refine .inl ?_
    dsimp only [AuthSyncAction.acts] at acted
    split at acted
    · exact other acted fun p same => by cases same
    · have same : w.state = w'.state := Option.some.inj acted
      rw [same]
      exact joined
  | goOn k =>
    refine .inl (other acted fun p same => ?_)
    cases same

/-- The run lemma: the invariant of the deliveries, and who is joined has completed a handshake of its
own. -/
theorem ownHandshake_run {stored : TeamId → Option Blob} {as : List (AuthSyncAction Blob)}
    {w : AuthSyncs Blob}
    (ran : run (authSyncStep lfa fromString completes) { state := .start stored } as = some w) :
    AuthSyncInv fromString w ∧ ∀ c, w.state.status c = .JOINED →
      ∃ p, OwnHandshake lfa fromString completes stored as c p := by
  refine run_remembers (P := fun done w => AuthSyncInv fromString w ∧
    ∀ c, w.state.status c = .JOINED →
      ∃ p, OwnHandshake lfa fromString completes stored done c p) ?_ ?_ ran
  · refine ⟨⟨.start stored, fun _ _ _ waits => ?_, fun _ _ _ _ _ waits => ?_, ?_, List.nodup_nil⟩, ?_⟩
    · cases waits
    · cases waits
    · exact fun _ mem => absurd mem List.not_mem_nil
    · intro c joined
      cases joined
  · rintro done w b w' before ⟨inv, joinedOwn⟩ stepped
    refine ⟨authSyncInv_step inv stepped, fun c joined => ?_⟩
    rcases joined_authSyncStep inv.wired stepped joined with was | ⟨p, rfl, started, member⟩
    · obtain ⟨p, own⟩ := joinedOwn c was
      exact ⟨p, own.snoc before stepped joined⟩
    · have allowed : completes c ((w.given c).map (·.bytes)) p = true := by
        dsimp only [authSyncStep] at stepped
        split at stepped
        · next allowed => exact allowed
        · cases stepped
      have manager := run_projects AuthSyncs.state AuthSyncAction.acts
        (fun w b w' stepped => authSyncStep_acts stepped) before
      have held := (letInInv_run manager).started c started
      have once : ((w.given c).map (·.number)).Nodup :=
        inv.once.sublist (List.filter_sublist.map _)
      have sent : ∀ d ∈ w.given c, SentBy fromString w.arrived d :=
        fun d mem => inv.sent d (List.mem_of_mem_filter mem)
      exact ⟨p, .last before ⟨allowed, once, sent, member, held⟩ stepped joined⟩

end

/-- **Whoever passes has shaken hands itself.** In every run of auth-sync handlers beside the manager,
interleaved at every await: LFA is given nothing for a connection but contents of messages that came over
the connection's own socket, naming its team and user, each message at most once. So whoever passes the
check of a message to a team does so with the connection that is registered for the message's user and
joined, over whose socket itself had come what authenticated a member of the team's chain, and which has
been joined since. -/
theorem passes_by_own_handshake (lfa : Lfa Blob) (fromString : JsValue → Except HandlerError Bytes)
    (completes : AuthConnection → List Bytes → UserId → Bool) (stored : TeamId → Option Blob)
    (as : List (AuthSyncAction Blob)) (w : AuthSyncs Blob)
    (ran : run (authSyncStep lfa fromString completes) { state := .start stored } as = some w) :
    ((w.delivered.map (·.number)).Nodup ∧ ∀ d ∈ w.delivered, SentBy fromString w.arrived d) ∧
    ∀ k caller m userId socketId, w.state.tasks k = .resolved caller (some m) →
      Sync.validateSyncPermission userId caller.teamId (some (w.state.sessions m)) socketId = .ok () →
        ∃ c p, w.state.connectionOf m userId = some c ∧ w.state.status c = .JOINED ∧
          c.communityId = caller.teamId ∧ c.userId = userId ∧ c.socketId = socketId ∧
          OwnHandshake lfa fromString completes stored as c p := by
  obtain ⟨inv, joinedOwn⟩ := ownHandshake_run ran
  refine ⟨⟨inv.once, inv.sent⟩, fun k caller m userId socketId waiting passes => ?_⟩
  obtain ⟨c, registered, joined, community, user, socket⟩ := joined_of_passes inv.wired waiting passes
  obtain ⟨p, own⟩ := joinedOwn c joined
  exact ⟨c, p, registered, joined, community, user, socket, own⟩

/-- A member signs in, sends a message of the handshake, is joined, and asks to write. -/
def handshakeSent : List (AuthSyncAction Team) :=
  let env : State.Env := { closes := true, dies := false, now := 0 }
  let connection : AuthConnection :=
    { id := 2
      userId := "alice"
      communityId := "team"
      sigChain := { id := 0, teamId := "team", listens := true }
      socketId := "socket" }
  let message : JsValue := .object [("payload", .object
    [("teamId", .string "team"), ("userId", .string "alice"), ("message", .string "aGk=")])]
  [.act (.get 0 (.signIn "team" "alice" "socket") false), .act (.communityRead 0 true),
    .act (.keysRetrieved 0 true), .act (.resume 0 env), .arrive 0 ⟨"socket", message⟩, .goOn 0,
    .act (.connected connection "alice"),
    .act (.get 0 (.logEntrySync (entryOf "team" "alice") "socket") false)]

/-- LFA takes "hi" for the handshake, and it has come over the socket. -/
theorem passes_by_own_handshake_hi :
    let fromString : JsValue → Except HandlerError Bytes := fun text =>
      match text with
      | .string "aGk=" => .ok [104, 105]
      | _ => .error .typeError
    let completes : AuthConnection → List Bytes → UserId → Bool :=
      fun _ given _ => given == [[104, 105]]
    ∃ w : AuthSyncs Team, run (authSyncStep (.plain fun _ => ["alice"]) fromString completes)
        { state := .start fun _ => some { id := "team", links := ∅ } } handshakeSent = some w ∧
      ∃ c p, c.communityId = "team" ∧ c.userId = "alice" ∧ c.socketId = "socket" ∧
        OwnHandshake (.plain fun _ => ["alice"]) fromString completes
          (fun _ => some { id := "team", links := ∅ }) handshakeSent c p := by
  intro fromString completes
  refine ⟨_, rfl, ?_⟩
  obtain ⟨c, p, -, -, rest⟩ := (passes_by_own_handshake (.plain fun _ => ["alice"]) fromString completes
    (fun _ => some { id := "team", links := ∅ }) handshakeSent _ rfl).2 0
      (.logEntrySync (entryOf "team" "alice") "socket") _ "alice" "socket" rfl rfl
  exact ⟨c, p, rest⟩

end QuietStorage.Websocket
