import QuietStorage.Websocket.Handlers

/-!
# Websocket.Escapes — when an error leaves a handler

The handlers are attached to the socket as they are, so what a handler throws is an unhandled
rejection of the whole process. Each has a `try` around its work, and a catch block that calls the
callback again.

`handle_neverThrows_iff` says for each event which messages let nothing out, whatever the services do:
those with a callback, and for a log entry those with a payload as well. Any other message makes its
handler throw in every case.
-/

set_option autoImplicit false

namespace QuietStorage.Websocket

open Lib Communities

section
variable {Blob α : Type}

/-! ## The parts of a handler -/

/-- An operation that succeeds, and what follows it. -/
theorem neverThrows_js {r : Except TypeError α} {a : α} {f : α → GatewayM Blob Unit}
    (succeeds : r = .ok a) (next : NeverThrows (f a)) : NeverThrows (js r >>= f) := by
  rw [succeeds]
  exact next

/-- An operation that fails ends the program. -/
theorem neverReturns_js {r : Except TypeError α} {e : TypeError} (fails : r = .error e)
    (f : α → GatewayM Blob Unit) : NeverReturns (js r >>= f) := by
  rw [fails]
  trivial

/-- The properties of a property that is not there cannot be read. -/
theorem neverReturns_js_js {value : JsValue} {name : String} (inner : String)
    (missing : ∀ inner, (do (← value.property name).property inner) = .error TypeError.typeError)
    (f : JsValue → JsValue → GatewayM Blob Unit) :
    NeverReturns (js (value.property name) >>= fun field =>
      js (field.property inner) >>= f field : GatewayM Blob Unit) := by
  have fails := missing inner
  cases read : value.property name with
  | error e => trivial
  | ok field =>
    rw [read] at fails
    exact neverReturns_js fails (f field)

variable {config : HandlerConfig} {event : WebsocketEvents} {callback : JsValue}
  {status : CommunityOperationStatus} {reason : Option String} {payload : Option JsValue}

theorem respond_neverThrows (callable : callback.isFunction = true) :
    NeverThrows (respond config event callback status reason payload : GatewayM Blob Unit) := by
  refine neverThrows_modify_bind (neverThrows_get_bind fun s => ?_)
  rw [if_pos callable]
  exact neverThrows_modify _

theorem respond_neverReturns (notCallable : callback.isFunction = false) :
    NeverReturns (respond config event callback status reason payload : GatewayM Blob Unit) := by
  refine neverReturns_bind_next _ fun _ => neverReturns_bind_next _ fun s => ?_
  rw [notCallable]
  trivial

end

section
variable {Blob : Type} {config : HandlerConfig} {message callback : JsValue}

/-! ## Without a callback

Every way through a handler comes to `respond`, or throws before it. -/

theorem handleVerifyCaptcha_neverReturns (notCallable : callback.isFunction = false) :
    NeverReturns (handleVerifyCaptcha config message callback : GatewayM Blob Unit) := by
  refine neverReturns_tryCatch ?_ fun _ => respond_neverReturns notCallable
  refine neverReturns_bind_next _ fun s => ?_
  split
  · exact respond_neverReturns notCallable
  · refine neverReturns_bind_next _ fun payload => neverReturns_bind_next _ fun token => ?_
    refine neverReturns_bind_next _ fun hcaptchaResponse => ?_
    split
    · exact neverReturns_bind_next _ fun _ => respond_neverReturns notCallable
    · exact respond_neverReturns notCallable

theorem handleGetCaptchaSiteKey_neverReturns (notCallable : callback.isFunction = false) :
    NeverReturns (handleGetCaptchaSiteKey config callback : GatewayM Blob Unit) := by
  refine neverReturns_tryCatch ?_ fun _ => respond_neverReturns notCallable
  exact neverReturns_bind_next _ fun siteKey => respond_neverReturns notCallable

theorem handleGeneratePublicKeys_neverReturns (notCallable : callback.isFunction = false) :
    NeverReturns (handleGeneratePublicKeys config message callback : GatewayM Blob Unit) := by
  refine neverReturns_tryCatch ?_ fun _ => respond_neverReturns notCallable
  refine neverReturns_bind_next _ fun payload => ?_
  split
  · trivial
  · refine neverReturns_bind_next _ fun teamId => neverReturns_bind_next _ fun s => ?_
    split
    · exact respond_neverReturns notCallable
    · split
      · exact respond_neverReturns notCallable
      · refine neverReturns_bind_next _ fun _ => neverReturns_bind_next _ fun keyset => ?_
        refine neverReturns_bind_next _ fun _ => neverReturns_bind_next _ fun keys => ?_
        exact respond_neverReturns notCallable

theorem handleCreateCommunity_neverReturns (notCallable : callback.isFunction = false) :
    NeverReturns (handleCreateCommunity config message callback : GatewayM Blob Unit) := by
  refine neverReturns_tryCatch ?_ fun _ => respond_neverReturns notCallable
  refine neverReturns_bind_next _ fun s => ?_
  split
  · exact respond_neverReturns notCallable
  · split
    · exact respond_neverReturns notCallable
    · refine neverReturns_bind_next _ fun fields => neverReturns_bind_next _ fun _ => ?_
      refine neverReturns_bind_next _ fun _ => neverReturns_bind_next _ fun _ => ?_
      refine neverReturns_bind_next _ fun _ => neverReturns_bind_next _ fun _ => ?_
      exact respond_neverReturns notCallable

theorem handleSignInToCommunity_neverReturns (notCallable : callback.isFunction = false) :
    NeverReturns (handleSignInToCommunity config message callback : GatewayM Blob Unit) := by
  refine neverReturns_tryCatch ?_ fun _ => respond_neverReturns notCallable
  refine neverReturns_bind_next _ fun payload => ?_
  split
  · trivial
  · refine neverReturns_bind_next _ fun teamId => neverReturns_bind_next _ fun userId => ?_
    refine neverReturns_bind_next _ fun community => neverReturns_bind_next _ fun printed => ?_
    split
    · exact respond_neverReturns notCallable
    · refine neverReturns_bind_next _ fun manager => neverReturns_bind_next _ fun _ => ?_
      exact neverReturns_bind_next _ fun _ => respond_neverReturns notCallable

/-- In the local environment. -/
theorem handleGetCommunity_neverReturns (isLocal : config.env = .ok .Local)
    (notCallable : callback.isFunction = false) :
    NeverReturns (handleGetCommunity config message callback : GatewayM Blob Unit) := by
  unfold handleGetCommunity
  rw [isLocal]
  refine neverReturns_tryCatch ?_ fun _ => respond_neverReturns notCallable
  refine neverReturns_bind_next _ fun payload => neverReturns_bind_next _ fun teamId => ?_
  refine neverReturns_bind_next _ fun managedCommunity => ?_
  cases managedCommunity with
  | none => exact respond_neverReturns notCallable
  | some community =>
    exact neverReturns_bind_next _ fun sigChain => respond_neverReturns notCallable

theorem handleLogEntrySync_neverReturns (notCallable : callback.isFunction = false) :
    NeverReturns (handleLogEntrySync config message callback : GatewayM Blob Unit) := by
  refine neverReturns_tryCatch ?_ fun e => ?_
  · refine neverReturns_bind_next _ fun payload => neverReturns_bind_next _ fun teamId => ?_
    refine neverReturns_bind_next _ fun stored => ?_
    cases stored with
    | none => trivial
    | some position =>
      refine neverReturns_bind_next _ fun _ => neverReturns_bind_next _ fun hash => ?_
      exact neverReturns_bind_next _ fun hashedDbId => respond_neverReturns notCallable
  · refine neverReturns_bind_next _ fun payload => neverReturns_bind_next _ fun hash => ?_
    refine neverReturns_bind_next _ fun hashedDbId => neverReturns_bind_next _ fun teamId => ?_
    exact respond_neverReturns notCallable

theorem handleLogEntryPull_neverReturns (notCallable : callback.isFunction = false) :
    NeverReturns (handleLogEntryPull config message callback : GatewayM Blob Unit) := by
  refine neverReturns_tryCatch ?_ fun _ => respond_neverReturns notCallable
  refine neverReturns_bind_next _ fun payload => neverReturns_bind_next _ fun result => ?_
  exact respond_neverReturns notCallable

theorem handleRegisterDevice_neverReturns (notCallable : callback.isFunction = false) :
    NeverReturns (handleRegisterDevice config message callback : GatewayM Blob Unit) := by
  refine neverReturns_tryCatch ?_ fun _ => respond_neverReturns notCallable
  refine neverReturns_bind_next _ fun payload => neverReturns_bind_next _ fun deviceToken => ?_
  refine neverReturns_bind_next _ fun bundleId => neverReturns_bind_next _ fun platform => ?_
  refine neverReturns_bind_next _ fun teamId => neverReturns_bind_next _ fun authorized => ?_
  split
  · exact respond_neverReturns notCallable
  · refine neverReturns_bind_next _ fun result => ?_
    split <;> exact respond_neverReturns notCallable

theorem handleSendPush_neverReturns (notCallable : callback.isFunction = false) :
    NeverReturns (handleSendPush config message callback : GatewayM Blob Unit) := by
  refine neverReturns_tryCatch ?_ fun _ => respond_neverReturns notCallable
  refine neverReturns_bind_next _ fun payload => neverReturns_bind_next _ fun ucan => ?_
  refine neverReturns_bind_next _ fun ucanInfo => ?_
  split
  · exact respond_neverReturns notCallable
  · refine neverReturns_bind_next _ fun authorized => ?_
    split
    · exact respond_neverReturns notCallable
    · refine neverReturns_bind_next _ fun title => neverReturns_bind_next _ fun body => ?_
      refine neverReturns_bind_next _ fun data => neverReturns_bind_next _ fun result => ?_
      split
      · exact respond_neverReturns notCallable
      · split <;> exact respond_neverReturns notCallable

theorem handleSendBatchPush_neverReturns (notCallable : callback.isFunction = false) :
    NeverReturns (handleSendBatchPush config message callback : GatewayM Blob Unit) := by
  refine neverReturns_tryCatch ?_ fun _ => respond_neverReturns notCallable
  refine neverReturns_bind_next _ fun payload => neverReturns_bind_next _ fun ucans => ?_
  split
  · exact respond_neverReturns notCallable
  · split
    · exact respond_neverReturns notCallable
    · refine neverReturns_bind_next _ fun authorized => ?_
      split
      · exact respond_neverReturns notCallable
      · refine neverReturns_bind_next _ fun title => neverReturns_bind_next _ fun body => ?_
        refine neverReturns_bind_next _ fun data => neverReturns_bind_next _ fun result => ?_
        split <;> exact respond_neverReturns notCallable

/-! ## Without a payload -/

/-- The catch block of `handleLogEntrySync` fails where its `try` has. -/
theorem handleLogEntrySync_neverReturns_of_missing
    (missing : ∀ inner, (do (← message.property "payload").property inner) =
      .error TypeError.typeError) :
    NeverReturns (handleLogEntrySync config message callback : GatewayM Blob Unit) :=
  neverReturns_tryCatch (neverReturns_js_js "teamId" missing _)
    fun _ => neverReturns_js_js "hash" missing _

/-- With a payload and a callback it contains every error. -/
theorem handleLogEntrySync_neverThrows (callable : callback.isFunction = true)
    (present : message.Has "payload") :
    NeverThrows (handleLogEntrySync config message callback : GatewayM Blob Unit) := by
  obtain ⟨payload, read, notNullish⟩ := present
  obtain ⟨hash, readHash⟩ := JsValue.property_ok "hash" notNullish
  obtain ⟨hashedDbId, readDbId⟩ := JsValue.property_ok "hashedDbId" notNullish
  obtain ⟨teamId, readTeamId⟩ := JsValue.property_ok "teamId" notNullish
  refine neverThrows_tryCatch (fun e => ?_) _
  refine neverThrows_js read (neverThrows_js readHash ?_)
  exact neverThrows_js readDbId (neverThrows_js readTeamId (respond_neverThrows callable))

/-- `handleAuthSync` answers nothing, and contains every error. -/
theorem handleAuthSync_neverThrows :
    NeverThrows (handleAuthSync config message : GatewayM Blob Unit) :=
  neverThrows_tryCatch (h := fun _ => Pure.pure ()) (fun _ => trivial) _

/-- Out of the local environment `handleGetCommunity` does nothing. -/
theorem handleGetCommunity_neverThrows {env : Encryption.Environment} (read : config.env = .ok env)
    (callable : env = .Local → callback.isFunction = true) :
    NeverThrows (handleGetCommunity config message callback : GatewayM Blob Unit) := by
  refine neverThrows_ofExcept_bind read ?_
  split
  · trivial
  · next isLocal =>
    have callable := callable (not_not.mp isLocal)
    exact neverThrows_tryCatch (fun _ => respond_neverThrows callable) _

end

/-! ## Which messages let nothing out -/

/-- What a message needs for its handler to contain every error. -/
def Contained (config : HandlerConfig) (message callback : JsValue) : WebsocketEvents → Prop
  | .AuthSync => True
  | .GetCommunity =>
    ∃ env, config.env = .ok env ∧ (env = .Local → callback.isFunction = true)
  | .LogEntrySync => callback.isFunction = true ∧ message.Has "payload"
  | _ => callback.isFunction = true

section
variable {Blob : Type} {config : HandlerConfig} {message callback : JsValue}

theorem handle_neverThrows {event : WebsocketEvents}
    (contained : Contained config message callback event) :
    NeverThrows (handle config message callback event : GatewayM Blob Unit) := by
  cases event with
  | AuthSync => exact handleAuthSync_neverThrows
  | LogEntrySync => exact handleLogEntrySync_neverThrows contained.1 contained.2
  | GetCommunity =>
    obtain ⟨env, read, callable⟩ := contained
    exact handleGetCommunity_neverThrows read callable
  | _ => exact neverThrows_tryCatch (fun _ => respond_neverThrows contained) _

/-- A handler that does not contain every error throws in every case. -/
theorem handle_neverReturns {event : WebsocketEvents}
    (escapes : ¬Contained config message callback event) :
    NeverReturns (handle config message callback event : GatewayM Blob Unit) := by
  cases event with
  | AuthSync => exact absurd trivial escapes
  | CreateCommunity =>
    exact handleCreateCommunity_neverReturns (Bool.eq_false_iff.mpr escapes)
  | GetCommunity =>
    cases read : config.env with
    | error e =>
      unfold handle handleGetCommunity
      rw [read]
      trivial
    | ok env =>
      have isLocal : env = .Local := by
        by_contra another
        exact escapes ⟨env, read, fun isLocal => absurd isLocal another⟩
      rw [isLocal] at read
      have notCallable := Bool.eq_false_iff.mpr fun callable => escapes ⟨_, read, fun _ => callable⟩
      exact handleGetCommunity_neverReturns read notCallable
  | SignInCommunity =>
    exact handleSignInToCommunity_neverReturns (Bool.eq_false_iff.mpr escapes)
  | GeneratePublicKeys =>
    exact handleGeneratePublicKeys_neverReturns (Bool.eq_false_iff.mpr escapes)
  | LogEntrySync =>
    rcases JsValue.has_or_throws message "payload" with present | missing
    · refine handleLogEntrySync_neverReturns (Bool.eq_false_iff.mpr fun callable => ?_)
      exact escapes ⟨callable, present⟩
    · exact handleLogEntrySync_neverReturns_of_missing missing
  | LogEntryPull => exact handleLogEntryPull_neverReturns (Bool.eq_false_iff.mpr escapes)
  | VerifyCaptcha => exact handleVerifyCaptcha_neverReturns (Bool.eq_false_iff.mpr escapes)
  | GetCaptchaSiteKey =>
    exact handleGetCaptchaSiteKey_neverReturns (Bool.eq_false_iff.mpr escapes)
  | QPSRegisterDevice => exact handleRegisterDevice_neverReturns (Bool.eq_false_iff.mpr escapes)
  | QPSSendPush => exact handleSendPush_neverReturns (Bool.eq_false_iff.mpr escapes)
  | QPSSendBatchPush => exact handleSendBatchPush_neverReturns (Bool.eq_false_iff.mpr escapes)

end

/-- **What a handler lets out**: for every event, message and callback, the handler throws nothing,
whatever the state and whatever the services return or throw, exactly when the message has what its
catch block takes for granted. -/
theorem handle_neverThrows_iff {Blob : Type} (config : HandlerConfig) (message callback : JsValue)
    (event : WebsocketEvents) :
    NeverThrows (handle config message callback event : GatewayM Blob Unit) ↔
      Contained config message callback event := by
  constructor
  · intro safe
    by_contra escapes
    exact (handle_neverReturns escapes).throws safe
  · exact handle_neverThrows

/-- A log entry without a payload, with a callback: the catch block reads the payload that is
missing. -/
theorem handle_throws :
    ¬ NeverThrows (handle ⟨"socket", 0, .ok .Production⟩ (.object [("ts", .int 0)]) .function
      .LogEntrySync : GatewayM Unit Unit) := by
  have throws : NeverReturns
      (handle ⟨"socket", 0, .ok .Production⟩ (.object [("ts", .int 0)]) .function .LogEntrySync :
        GatewayM Unit Unit) :=
    handleLogEntrySync_neverReturns_of_missing fun inner => rfl
  exact throws.throws

end QuietStorage.Websocket
