import QuietStorage.Encryption.EnvCache
import QuietStorage.Encryption.KeyDiscipline

/-!
# Encryption.EnvCalls — every call keeps the cache coherent

The calls of `Encryption.EnvSecrets` keep the invariant of `Encryption.EnvCache`, each from one `await`
to the next, when creations go on only where no other call holds an older answer; and then every run.
-/

set_option autoImplicit false

namespace QuietStorage.Encryption

open Lib EnvWorld

section
variable {config : EnvConfig} {env : Environment} {w w' : EnvWorld} {t : Nat}

/-! ## What a call may do -/

theorem grows_of (keys : w'.keys = w.keys) (past : w'.past = w.past) (moment : w.moment ≤ w'.moment)
    (settled : ∀ c ∈ w.settled, c ∈ w'.settled) : w.Grows w' where
  stored secretName secret stored := by
    rw [Stored, keys, past]
    exact stored
  moment := moment
  settled := settled

/-- A call changes neither the secrets nor what other calls hold. -/
theorem acts_of (keys : w'.keys = w.keys) (past : w'.past = w.past) (moment : w.moment ≤ w'.moment)
    (settled : ∀ c ∈ w.settled, c ∈ w'.settled)
    (held : ∀ t', t' ≠ t → w'.held t' = w.held t') : (envDiscipline config env).Acts t w w' :=
  ⟨grows_of keys past moment settled, held⟩

/-- It takes an answer. -/
theorem acts_hold (held : Option Held) : (envDiscipline config env).Acts t w (w.hold t held) :=
  acts_of rfl rfl (Nat.le_succ _) (fun _ => id) fun _ other => held_hold_of_ne other held

theorem acts_moveKeys (keys : Keys Unit) :
    (envDiscipline config env).Acts t w (w.moveKeys keys) :=
  ⟨grows_moveKeys keys, fun _ _ => rfl⟩

theorem acts_ask (call : EnvCall) (secretId : String) :
    (envDiscipline config env).Acts t w (w.ask call secretId) :=
  acts_of rfl rfl le_rfl (fun _ => id) fun _ _ => rfl

theorem acts_settle (secretName : String) :
    (envDiscipline config env).Acts t w (w.settle t secretName) :=
  acts_of rfl rfl le_rfl (fun _ => List.mem_cons_of_mem _) fun _ _ => rfl

theorem acts_deleteCached (key : String) :
    (envDiscipline config env).Acts t w (w.deleteCached key) :=
  acts_of rfl rfl le_rfl (fun _ => id) fun _ _ => rfl

theorem acts_setCached (key value : String) :
    (envDiscipline config env).Acts t w (w.setCached t key value) :=
  acts_of rfl rfl le_rfl (fun _ => id) fun _ _ => rfl

theorem acts_recordReturned (secretName : String) (useEnvScopedName : Bool) (began : Nat)
    (value : Option String) : (envDiscipline config env).Acts t w
      (w.recordReturned config t secretName useEnvScopedName began value) :=
  acts_of rfl rfl le_rfl (fun _ => id) fun _ _ => rfl

theorem acts_recordCreated (secretName : String) :
    (envDiscipline config env).Acts t w (w.recordCreated t secretName) :=
  acts_of rfl rfl (Nat.le_succ _) (fun _ => id) fun _ _ => rfl

theorem acts_release : (envDiscipline config env).Acts t w (w.release t) :=
  acts_of rfl rfl le_rfl (fun _ => id) fun _ other => held_release_of_ne other

/-! ## Answers -/

/-- How the commands are answered when creations go on only where no other call holds an older
answer. -/
noncomputable abbrev performLast (config : EnvConfig) :
    EnvWorld → (c : EnvCommand) → EnvChoice → Option (EnvWorld × Except Thrown c.Answer) :=
  restrict GoesOnLast (performEnv config)

/-- The call holds the answer that a result comes of. -/
def Holds (w : EnvWorld) (t : Nat) (key : String) : Prop :=
  ∃ held, w.held t = some held ∧ held.key = key

theorem Holds.keeps {key : String} (holds : Holds w t key)
    (rely : (envDiscipline config env).Rely t w w') : Holds w' t key := by
  obtain ⟨held, isHeld, isKey⟩ := holds
  exact ⟨held, rely.keeps.trans isHeld, isKey⟩

/-- What is answered to a question: the response has a secret that is stored, or none, or there is no
such secret. -/
def Found (config : EnvConfig) (t : Nat) (call : EnvCall) (w : EnvWorld)
    (r : Except Thrown GetSecretValueCommandOutput) : Prop :=
  (isFinal r = true → Holds w t (call.key config)) ∧
    ∀ response, r = .ok response → response = {} ∨
      ∃ secret, w.Stored (call.key config) secret ∧ response = secret.output

theorem envAnswer_performed {call : EnvCall} {secretId : String} {choice : EnvChoice}
    {r : Except Thrown GetSecretValueCommandOutput}
    (performed : performEnv config w (.aws t call (.getSecretValue secretId)) choice = some (w', r)) :
    ∃ held, w' = ((w.moveKeys w.keys).hold t held).ask call secretId ∧
      (held = none ∧ isFinal r = false ∨
        isFinal r = true ∧ held = some ⟨call.key config, w.moment + 1⟩) ∧
      Responds w.keys secretId w.keys r := by
  cases choice with
  | turned => cases performed
  | aws choice =>
    simp only [performEnv] at performed
    split at performed
    · cases performed
    · next keys answer answered =>
      obtain ⟨rfl, responds⟩ := getSecretValue_performed answered
      cases performed
      refine ⟨_, rfl, ?_, responds⟩
      by_cases final : isFinal r = true
      · rw [if_pos final]
        exact .inr ⟨final, rfl⟩
      · rw [if_neg final]
        exact .inl ⟨rfl, Bool.eq_false_iff.mpr final⟩

/-- A question is for the secret of the call's environment. -/
theorem envAnswer_meets {call : EnvCall}
    (right : ∀ secretName, call = .read secretName true →
      call.key config = scopedName env secretName) :
    Meets (envDiscipline config env) t (performLast config) (Found config t call)
      (Async.send (EnvCommand.aws t call (.getSecretValue (call.key config)))) w := by
  refine meets_send ?_
  intro w₁ _ inv₁ choice w₂ r performed
  obtain ⟨held, rfl, final, responds⟩ := envAnswer_performed (restrict_eq_some performed).2
  have new : ∀ h, held = some h → h.answeredAt = (w₁.moveKeys w₁.keys).moment + 1 := by
    rintro h rfl
    rcases final with ⟨isNone, _⟩ | ⟨_, isSome⟩
    · cases isNone
    · cases isSome
      rfl
  refine ⟨((EnvInv.moveKeys inv₁ _).hold t held new).ask right,
    ((acts_moveKeys _).trans (acts_hold held)).trans (acts_ask _ _), fun w₃ rely₃ _ => ⟨?_, ?_⟩⟩
  · intro isTrue
    rcases final with ⟨_, isFalse⟩ | ⟨_, isSome⟩
    · rw [isFalse] at isTrue
      cases isTrue
    · refine Holds.keeps ⟨⟨call.key config, w₁.moment + 1⟩, ?_, rfl⟩ rely₃
      rw [← isSome]
      exact held_hold_self t held
  · rintro response rfl
    refine Or.imp_right (fun ⟨secret, isStored, isSecret⟩ => ⟨secret, ?_, isSecret⟩) responds
    exact rely₃.grows.stored _ _ ⟨w₁.keys, List.mem_cons_self .., isStored⟩

/-- Waiting leaves what others hold alone. -/
theorem envSleep_meets (call : EnvCall) (ms : Nat) :
    Meets (envDiscipline config env) t (performLast config) (fun _ _ => True)
      (Async.send (EnvCommand.aws t call (.sleep ms))) w := by
  refine meets_send ?_
  intro w₁ _ inv₁ choice w₂ r performed
  have performed := (restrict_eq_some performed).2
  cases choice with
  | turned => cases performed
  | aws choice =>
    simp only [performEnv] at performed
    split at performed
    · cases performed
    · cases performed
      exact ⟨inv₁.moveKeys _, acts_moveKeys _, fun _ _ _ => trivial⟩

/-- The call holds the answer that its secret comes of, and the secret was stored. -/
def Fetched (config : EnvConfig) (t : Nat) (call : EnvCall) (w : EnvWorld)
    (r : Except Thrown (Option Secret)) : Prop :=
  ∀ result, r = .ok result → Holds w t (call.key config) ∧
    ∀ secret, result = some secret → w.Stored (call.key config) secret

/-- What a `fetch` ends with: where it throws that there is no such secret, that was answered. -/
def Fetching (config : EnvConfig) (t : Nat) (call : EnvCall) (w : EnvWorld)
    (r : Except Thrown (Option Secret)) : Prop :=
  Fetched config t call w r ∧
    ∀ e, r = .error e → isSecretNotFoundError e = true → Holds w t (call.key config)

/-- A program of the wrapper service, with its commands in the larger world. -/
abbrev MeetsAwaited {α : Type} (config : EnvConfig) (env : Environment) (t : Nat) (call : EnvCall)
    (Q : EnvWorld → Except Thrown α → Prop) (m : KeyM Unit α) (w : EnvWorld) : Prop :=
  Meets (envDiscipline config env) t (performLast config) Q (awaited t call m) w

theorem fetched_error {call : EnvCall} (e : Thrown) : Fetched config t call w (.error e) :=
  fun _ isOk => nomatch isOk

theorem fetched_none {call : EnvCall} (holds : Holds w t (call.key config)) :
    Fetched config t call w (.ok none) := by
  intro result isOk
  cases isOk
  exact ⟨holds, fun secret isSome => nomatch isSome⟩

theorem fetching_ok {call : EnvCall} {secret : Secret} (holds : Holds w t (call.key config))
    (stored : w.Stored (call.key config) secret) :
    Fetching config t call w (.ok (some secret)) := by
  refine ⟨fun result isOk => ?_, fun e isError => nomatch isError⟩
  cases isOk
  refine ⟨holds, fun secret' isSome => ?_⟩
  cases isSome
  exact stored

theorem fetching_error {call : EnvCall} {e : Thrown}
    (holds : isSecretNotFoundError e = true → Holds w t (call.key config)) :
    Fetching config t call w (.error e) := by
  refine ⟨fetched_error e, fun e' isError => ?_⟩
  cases isError
  exact holds

section
variable {call : EnvCall}
  (right : ∀ secretName, call = .read secretName true →
    call.key config = scopedName env secretName)
include right

theorem envFetch_meets (inv : EnvInv config env w) :
    MeetsAwaited config env t call (Fetching config t call)
      (AWSSecretsService.fetch (call.key config)) w := by
  refine meets_interpret_bind inv (meets_interpret_send (envAnswer_meets right)) ?_ ?_
  · intro w₁ response _ _ ⟨holds, found⟩
    have has := holds rfl
    rcases found response rfl with rfl | ⟨secret, stored, rfl⟩
    · exact fetching_error fun _ => has
    · cases secret with
      | string text => exact fetching_ok has stored
      | binary bytes => exact fetching_ok has stored
  · exact fun w₁ e _ _ ⟨holds, _⟩ => fetching_error holds

theorem envAttempt_meets (inv : EnvInv config env w) (left : Nat) :
    MeetsAwaited config env t call (Fetched config t call)
      (AWSSecretsService.attempt (call.key config) left) w := by
  induction left generalizing w with
  | zero =>
    refine meets_interpret_tryCatch inv (envFetch_meets right inv) ?_ ?_
    · exact fun w₁ secret _ _ ended => ended.1
    · intro w₁ e _ _ ended
      by_cases notFound : isSecretNotFoundError e = true
      · rw [if_pos notFound]
        exact fetched_none (ended.2 e rfl notFound)
      · rw [if_neg notFound]
        exact fetched_error _
  | succ left ih =>
    refine meets_interpret_tryCatch inv (envFetch_meets right inv) ?_ ?_
    · exact fun w₁ secret _ _ ended => ended.1
    · intro w₁ e inv₁ _ ended
      by_cases notFound : isSecretNotFoundError e = true
      · rw [if_pos notFound]
        exact fetched_none (ended.2 e rfl notFound)
      · rw [if_neg notFound]
        split
        · have slept : MeetsAwaited config env t call (fun _ _ => True)
              (Async.send (SecretCommand.sleep GET_SECRET_RETRY_DELAY_MS)) w₁ :=
            meets_interpret_send (envSleep_meets call _)
          refine meets_interpret_bind inv₁ slept ?_ ?_
          · exact fun w₂ _ inv₂ _ _ => ih inv₂
          · exact fun _ _ _ _ _ => fetched_error _
        · exact fetched_error _

theorem envGet_meets (isEnv : config.env = env) (remote : env.isLocal = false)
    (inv : EnvInv config env w) :
    MeetsAwaited config env t call (Fetched config t call)
      (AWSSecretsService.get config.env (call.key config)) w := by
  unfold AWSSecretsService.get
  rw [isEnv, remote, if_neg Bool.false_ne_true]
  exact envAttempt_meets right inv _

end

/-! ## Reading -/

theorem Fetched.keeps {call : EnvCall} {r : Except Thrown (Option Secret)}
    (fetched : Fetched config t call w r) (rely : (envDiscipline config env).Rely t w w') :
    Fetched config t call w' r := by
  intro result isOk
  obtain ⟨holds, stored⟩ := fetched result isOk
  exact ⟨holds.keeps rely, fun secret isSome => (stored secret isSome).mono rely.grows⟩

/-- The call goes on later, with what it has. -/
theorem turnRead_meets {secretName : String} {useEnvScopedName : Bool} {result : Option Secret}
    (fetched : Fetched config t (.read secretName useEnvScopedName) w (.ok result)) :
    Meets (envDiscipline config env) t (performLast config)
      (fun w' _ => Fetched config t (.read secretName useEnvScopedName) w' (.ok result))
      (Async.send (EnvCommand.turn t (.read secretName useEnvScopedName))) w := by
  refine meets_send ?_
  intro w₁ rely₁ inv₁ choice w₂ r performed
  have performed := (restrict_eq_some performed).2
  cases choice with
  | aws choice => cases performed
  | turned =>
    cases performed
    exact ⟨inv₁, .refl t w₁, fun w₃ rely₃ _ => fetched.keeps (rely₁.trans rely₃)⟩

/-- What the call returns is right. -/
def Valued (config : EnvConfig) (env : Environment) (t : Nat) (key : String) (w : EnvWorld)
    (r : Except Thrown (Option String)) : Prop :=
  ∀ value, r = .ok value → Returns config env w t key value

theorem valued_error {key : String} (e : Thrown) : Valued config env t key w (.error e) :=
  fun _ isOk => nomatch isOk

theorem valued_held {key : String} {value : Option String} (holds : Holds w t key)
    (from_ : ∀ v, value = some v → From config env w key v) :
    Valued config env t key w (.ok value) := by
  intro value' isOk
  cases isOk
  refine ⟨from_, .inl holds, fun notHeld => ?_⟩
  obtain ⟨held, isHeld, _⟩ := holds
  rw [notHeld] at isHeld
  cases isHeld

/-- The call caches a value, and returns it. -/
theorem setCached_meets {key value : String} (inv : EnvInv config env w) (holds : Holds w t key)
    (from_ : From config env w key value) :
    Meets (envDiscipline config env) t (performLast config) (Valued config env t key)
      (do
        setCachedSecretEnvVar t key value
        pure (some value)) w := by
  obtain ⟨held, isHeld, rfl⟩ := holds
  have acts : (envDiscipline config env).Acts t w (w.setCached t held.key value) :=
    acts_setCached held.key value
  refine meets_modify_bind (inv.setCached isHeld from_) acts (valued_held ⟨held, isHeld, rfl⟩ ?_)
  intro v isSome
  cases isSome
  exact from_.mono acts.grows

theorem fetchSecretEnvVar_meets {secretName : String} {useEnvScopedName : Bool}
    (isEnv : config.env = env) (remote : env.isLocal = false)
    (right : ∀ secretName', EnvCall.read secretName useEnvScopedName = .read secretName' true →
      EnvCall.key config (.read secretName useEnvScopedName) = scopedName env secretName')
    (fallback : ∀ localSecret, config.getString secretName = some localSecret → ∀ secretName',
      EnvCall.key config (.read secretName useEnvScopedName) = scopedName env secretName' →
        config.getString secretName' = some localSecret)
    (inv : EnvInv config env w) :
    Meets (envDiscipline config env) t (performLast config)
      (Valued config env t (EnvCall.key config (.read secretName useEnvScopedName)))
      (fetchSecretEnvVar config t (.read secretName useEnvScopedName) secretName
        (EnvCall.key config (.read secretName useEnvScopedName))) w := by
  refine meets_bind inv (envGet_meets right isEnv remote inv) ?_ fun _ e _ _ _ => valued_error e
  intro w₁ result inv₁ _ fetched
  refine meets_bind inv₁ (turnRead_meets fetched) ?_ fun _ e _ _ _ => valued_error e
  intro w₂ _ inv₂ _ fetched
  obtain ⟨holds, stored⟩ := fetched result rfl
  split
  · next secretString isString =>
    obtain ⟨secret, isSecret, parsed⟩ := Option.bind_eq_some_iff.mp isString
    exact setCached_meets inv₂ holds (.inl ⟨secret, stored secret isSecret, parsed⟩)
  · split
    · exact valued_held holds fun v isSome => nomatch isSome
    · next localSecret isLocal => exact setCached_meets inv₂ holds (.inr (fallback _ isLocal))

/-- What is taken from the cache was cached less than five minutes before, and is not older than a
creation that has ended. -/
theorem getCachedSecretEnvVar_meets {key : String} (inv : EnvInv config env w)
    (idle : w.held t = none) :
    Meets (envDiscipline config env) t (performLast config)
      (fun w' r => ∀ value, r = .ok (some value) → Valued config env t key w' (.ok (some value)))
      (getCachedSecretEnvVar key) w := by
  refine meets_get_bind inv ?_
  split
  · exact fun value isOk => nomatch isOk
  · next cached isCached =>
    split
    · refine meets_modify_bind (inv.deleteCached key) (acts_deleteCached key) ?_
      exact fun value isOk => nomatch isOk
    · next alive =>
      intro value isOk value' isValue
      cases isOk
      cases isValue
      obtain ⟨stamp, isStamp, expires, cachedAt⟩ := inv.cached_stamped key cached isCached
      constructor
      case from_ =>
        intro v isSome
        cases isSome
        exact inv.cached_from key cached isCached
      case source => exact .inr ⟨stamp, idle, isStamp, cachedAt, by omega⟩
      case latest =>
        intro _ stamp' isStamp' c mem named
        exact inv.cached_latest key cached stamp' isCached isStamp' c mem named

theorem getSecretEnvVar_meets {secretName : String} {useEnvScopedName : Bool}
    (isEnv : config.getEnv = .ok env) (remote : env.isLocal = false)
    (right : ∀ secretName', EnvCall.read secretName useEnvScopedName = .read secretName' true →
      EnvCall.key config (.read secretName useEnvScopedName) = scopedName env secretName')
    (fallback : ∀ localSecret, config.getString secretName = some localSecret → ∀ secretName',
      EnvCall.key config (.read secretName useEnvScopedName) = scopedName env secretName' →
        config.getString secretName' = some localSecret)
    (inv : EnvInv config env w) (idle : w.held t = none) :
    Meets (envDiscipline config env) t (performLast config)
      (Valued config env t (EnvCall.key config (.read secretName useEnvScopedName)))
      (getSecretEnvVar config t (.read secretName useEnvScopedName) secretName useEnvScopedName)
      w := by
  have notLocal : ¬(env = .Local ∨ env = .Test) := by
    rintro (rfl | rfl)
    · cases remote
    · cases remote
  have configured : config.env = env := by rw [EnvConfig.env, isEnv]
  unfold getSecretEnvVar
  rw [isEnv]
  refine meets_ofExcept_bind ?_ fun e _ => valued_error e
  intro env' isOk
  cases isOk
  rw [if_neg notLocal]
  refine meets_bind inv (getCachedSecretEnvVar_meets inv idle) ?_ fun _ e _ _ _ => valued_error e
  intro w₁ found inv₁ _ valued
  cases found with
  | some value => exact valued value rfl
  | none => exact fetchSecretEnvVar_meets configured remote right fallback inv₁

/-! ## Creating -/

/-- The call holds the answer that its secret was stored with. -/
def Putting (t : Nat) (secretName : String) (secret : Secret) (w : EnvWorld)
    (r : Except Thrown Unit) : Prop :=
  r = .ok () → Holds w t secretName ∧ w.Stored secretName secret

theorem envPut_meets {secretName : String} {secret : Secret} {caller : Caller} :
    Meets (envDiscipline config env) t (performLast config) (Putting t secretName secret)
      (Async.send (EnvCommand.aws t (.create secretName secret)
        (.createSecret caller secretName secret))) w := by
  refine meets_send ?_
  intro w₁ _ inv₁ choice w₂ r performed
  have performed := (restrict_eq_some performed).2
  cases choice with
  | turned => cases performed
  | aws choice =>
    simp only [performEnv] at performed
    split at performed
    · cases performed
    · next keys answer answered =>
      cases performed
      refine ⟨(inv₁.moveKeys keys).hold t _ ?_, (acts_moveKeys keys).trans (acts_hold _), ?_⟩
      · intro held isHeld
        split at isHeld
        · cases isHeld
          rfl
        · cases isHeld
      · rintro w₃ rely₃ _ rfl
        have stored : keys.secrets secretName = some secret := by
          rcases createSecret_performed answered with ⟨_, rfl, _⟩ | ⟨_, e, isError⟩
          · exact Function.update_self ..
          · cases isError
        refine ⟨Holds.keeps ⟨⟨secretName, w₁.moment + 1⟩, ?_, rfl⟩ rely₃, ?_⟩
        · exact held_hold_self t _
        · exact rely₃.grows.stored _ _ ⟨keys, List.mem_cons_self .., stored⟩

theorem envCreate_meets {secretName : String} {secret : Secret} {caller : Caller}
    (isEnv : config.env = env) (remote : env.isLocal = false) (inv : EnvInv config env w) :
    MeetsAwaited config env t (.create secretName secret) (Putting t secretName secret)
      (AWSSecretsService.create config.env caller secretName secret) w := by
  unfold AWSSecretsService.create
  rw [isEnv, remote, if_neg Bool.false_ne_true]
  have put : MeetsAwaited config env t (.create secretName secret) (Putting t secretName secret)
      (Async.send (SecretCommand.createSecret caller secretName secret)) w := by
    unfold MeetsAwaited awaited
    rw [interpret_send]
    exact envPut_meets
  refine meets_interpret_tryCatch inv put (fun _ _ _ _ ended => ended) ?_
  exact fun _ e _ _ _ isOk => nomatch isOk

/-- The creation has gone on: no call holds what was answered before it. -/
structure HasSettled (w : EnvWorld) (t : Nat) (secretName : String) (secret : Secret) : Prop where
  holds : Holds w t secretName
  settled : ∀ held, w.held t = some held → (held.key, held.answeredAt) ∈ w.settled
  stored : w.Stored secretName secret

/-- The creation goes on where no other call holds an older answer. -/
theorem turnCreate_meets {secretName : String} {secret : Secret}
    (putting : Putting t secretName secret w (.ok ())) :
    Meets (envDiscipline config env) t (performLast config)
      (fun w' _ => HasSettled w' t secretName secret)
      (Async.send (EnvCommand.turn t (.create secretName secret))) w := by
  refine meets_send ?_
  intro w₁ rely₁ inv₁ choice w₂ r performed
  obtain ⟨noneOlder, performed⟩ := restrict_eq_some performed
  obtain ⟨holds, stored⟩ := putting rfl
  cases choice with
  | aws choice => cases performed
  | turned =>
    cases performed
    obtain ⟨held, isHeld, rfl⟩ := holds.keeps rely₁
    refine ⟨inv₁.settle isHeld noneOlder, acts_settle held.key, fun w₃ rely₃ _ => ?_⟩
    have same : w₃.held t = some held := rely₃.keeps.trans isHeld
    refine ⟨⟨held, same, rfl⟩, fun held' isHeld' => ?_, ?_⟩
    · rw [same] at isHeld'
      cases isHeld'
      refine rely₃.grows.settled _ (List.mem_cons.mpr (.inl ?_))
      rw [answerOf_held isHeld]
    · have stored₁ : w₁.Stored held.key secret := stored.mono rely₁.grows
      exact rely₃.grows.stored _ _ stored₁

/-- What a creation ends with: its answer has gone on, and what is cached is not older. -/
def Creating (t : Nat) (secretName : String) (w : EnvWorld) (r : Except Thrown Unit) : Prop :=
  r = .ok () → ∃ held, w.held t = some held ∧ held.key = secretName ∧
    (held.key, held.answeredAt) ∈ w.settled ∧
    ∀ cached stamp, w.secretEnvVarCache held.key = some cached → w.stamps held.key = some stamp →
      held.answeredAt ≤ stamp.answeredAt

theorem updateCachedSecretEnvVar_meets {secretName : String} {secret : Secret}
    (inv : EnvInv config env w) (settled : HasSettled w t secretName secret) :
    Meets (envDiscipline config env) t (performLast config) (Creating t secretName)
      (updateCachedSecretEnvVar config t secretName secret) w := by
  obtain ⟨⟨held, isHeld, rfl⟩, isSettled, stored⟩ := settled
  unfold updateCachedSecretEnvVar
  split
  · refine meets_modify (inv.deleteCached held.key) (acts_deleteCached held.key) fun _ => ?_
    refine ⟨held, isHeld, rfl, isSettled held isHeld, fun cached stamp isCached => ?_⟩
    rw [cached_delete_self] at isCached
    cases isCached
  · next secretString parsed =>
    refine meets_modify (inv.setCached isHeld (.inl ⟨secret, stored, parsed⟩))
      (acts_setCached held.key secretString) fun _ => ?_
    refine ⟨held, isHeld, rfl, isSettled held isHeld, fun cached stamp _ isStamp => ?_⟩
    rw [stamps_set_self, answerOf_held isHeld] at isStamp
    cases isStamp
    exact le_rfl

theorem createSecretEnvVar_meets {secretName : String} {secret : Secret}
    (isEnv : config.env = env) (remote : env.isLocal = false) (inv : EnvInv config env w) :
    Meets (envDiscipline config env) t (performLast config) (Creating t secretName)
      (createSecretEnvVar config t (.create secretName secret) secretName secret) w := by
  refine meets_bind inv (envCreate_meets isEnv remote inv) ?_ fun _ e _ _ _ isOk => nomatch isOk
  intro w₁ _ inv₁ _ putting
  refine meets_bind inv₁ (turnCreate_meets putting) ?_ fun _ e _ _ _ isOk => nomatch isOk
  exact fun w₂ _ inv₂ _ settled => updateCachedSecretEnvVar_meets inv₂ settled

/-! ## Every call -/

/-- The prefix is that of the environment, but where `ENV` is `dev`. -/
theorem envScopedSecretName_eq (isEnv : config.getEnv = .ok env) (remote : env.isLocal = false)
    (notDev : (config.getString "ENV").map String.toLower ≠ some "dev") (secretName : String) :
    config.envScopedSecretName secretName = scopedName env secretName := by
  unfold EnvConfig.getEnv at isEnv
  split at isEnv
  · cases isEnv
  · next value isValue =>
    unfold EnvConfig.envScopedSecretName
    rw [isValue] at notDev ⊢
    dsimp only at isEnv
    split at isEnv
    · next dev =>
      cases isEnv
      have isDevelopment : value.toLower = "development" :=
        dev.resolve_left fun isDev => notDev (congrArg some isDev)
      rw [Option.map_some, isDevelopment]
      rfl
    · next notDevelopment =>
      split at isEnv
      · cases isEnv
        have other : ¬(Option.map String.toLower (some value) = some "development") :=
          fun isDevelopment => notDevelopment (.inr (Option.some.inj isDevelopment))
        rw [if_neg other]
        rfl
      · split at isEnv
        · cases isEnv
          cases remote
        · split at isEnv
          · cases isEnv
            cases remote
          · cases isEnv

theorem scopedName_injective {secretName secretName' : String}
    (same : scopedName env secretName = scopedName env secretName') : secretName = secretName' := by
  have lists := congrArg String.toList same
  simp only [scopedName, String.toList_append] at lists
  exact String.toList_inj.mp (List.append_cancel_left lists)

/-- A call that has ended, in whatever way, holds nothing. -/
theorem released_finishes {body : EnvM Unit} (inv : EnvInv config env w)
    (meets : Meets (envDiscipline config env) t (performLast config) (fun _ _ => True) body w) :
    Finishes (envDiscipline config env) (performLast config) t
      (do
        try body
        catch _ => pure ()
        Async.modify (·.release t)) w := by
  have caught : Meets (envDiscipline config env) t (performLast config) (fun _ r => r = .ok ())
      (MonadExcept.tryCatch body fun _ => pure ()) w :=
    meets_tryCatch inv meets (fun _ _ _ _ _ => rfl) fun _ _ _ _ _ => rfl
  refine meets_bind inv caught ?_ fun _ _ _ _ isOk => nomatch isOk
  intro w₁ _ inv₁ _ _
  exact meets_modify (inv₁.release t) acts_release (held_release_self t)

/-- A read of a secret. -/
theorem read_finishes {secretName : String} {useEnvScopedName : Bool}
    (isEnv : config.getEnv = .ok env) (remote : env.isLocal = false)
    (notDev : (config.getString "ENV").map String.toLower ≠ some "dev")
    (unshadowed : Unshadowed config env (.read secretName useEnvScopedName))
    (inv : EnvInv config env w) (idle : w.held t = none) :
    Finishes (envDiscipline config env) (performLast config) t
      ((EnvCall.read secretName useEnvScopedName).program config t) w := by
  have prefixed : useEnvScopedName = true →
      EnvCall.key config (.read secretName useEnvScopedName) = scopedName env secretName := by
    rintro rfl
    exact envScopedSecretName_eq isEnv remote notDev secretName
  have right : ∀ secretName', EnvCall.read secretName useEnvScopedName = .read secretName' true →
      EnvCall.key config (.read secretName useEnvScopedName) = scopedName env secretName' := by
    intro secretName' same
    cases same
    exact prefixed rfl
  have fallback : ∀ localSecret, config.getString secretName = some localSecret → ∀ secretName',
      EnvCall.key config (.read secretName useEnvScopedName) = scopedName env secretName' →
        config.getString secretName' = some localSecret := by
    intro localSecret isLocal secretName' same
    cases useEnvScopedName with
    | true =>
      rw [prefixed rfl] at same
      rw [← scopedName_injective same]
      exact isLocal
    | false =>
      rw [unshadowed secretName' same] at isLocal
      cases isLocal
  refine meets_get_bind inv (released_finishes inv ?_)
  refine meets_bind inv (getSecretEnvVar_meets isEnv remote right fallback inv idle) ?_
    fun _ _ _ _ _ => trivial
  intro w₁ value inv₁ grown valued
  exact meets_modify (inv₁.recordReturned grown.moment (valued value rfl) prefixed)
    (acts_recordReturned ..) trivial

/-- A creation of a secret. -/
theorem create_finishes {secretName : String} {secret : Secret}
    (isEnv : config.getEnv = .ok env) (remote : env.isLocal = false) (inv : EnvInv config env w) :
    Finishes (envDiscipline config env) (performLast config) t
      ((EnvCall.create secretName secret).program config t) w := by
  have configured : config.env = env := by rw [EnvConfig.env, isEnv]
  refine released_finishes inv (meets_bind inv (createSecretEnvVar_meets configured remote inv) ?_
    fun _ _ _ _ _ => trivial)
  intro w₁ _ inv₁ _ creating
  obtain ⟨held, isHeld, rfl, settled, latest⟩ := creating rfl
  exact meets_modify (inv₁.recordCreated isHeld settled latest) (acts_recordCreated _) trivial

theorem outside_keeps {event : EnvEvent} (inv : EnvInv config env w)
    (moved : envOutside w event = some w') :
    EnvInv config env w' ∧ w.Grows w' ∧ ∀ t, w'.held t = w.held t := by
  cases event with
  | clock now =>
    simp only [envOutside] at moved
    split at moved
    · next later =>
      cases moved
      exact ⟨inv.clock later, grows_of rfl rfl le_rfl fun _ => id, fun _ => rfl⟩
    · cases moved
  | store secretName secret =>
    cases moved
    exact ⟨inv.moveKeys _, grows_moveKeys _, fun _ => rfl⟩

/-! ## Runs -/

/-- **The step lemma.** -/
theorem envStep_keeps (isEnv : config.getEnv = .ok env) (remote : env.isLocal = false)
    (notDev : (config.getString "ENV").map String.toLower ≠ some "dev") {m m' : EnvState}
    {move : EnvMove} (safe : Safe (envDiscipline config env) (performLast config) m)
    (orderly : Orderly config env m move) (taken : envStep config m move = some m') :
    Safe (envDiscipline config env) (performLast config) m' := by
  have starts : ∀ t call w, EnvInv config env w → w.held t = none → Unshadowed config env call →
      Finishes (envDiscipline config env) (performLast config) t (call.program config t) w := by
    intro t call w inv idle unshadowed
    cases call with
    | read secretName useEnvScopedName =>
      exact read_finishes isEnv remote notDev unshadowed inv idle
    | create secretName secret => exact create_finishes isEnv remote inv
  have restricted : asyncStep (EnvCall.program config) (performLast config) envOutside m move =
      some m' := (asyncStep_restrict orderly.2).trans taken
  exact (safe_step starts (fun w event w' inv moved => outside_keeps inv moved) safe orderly.1
    restricted).1

/-- In a fresh process nothing is cached, and nothing has been asked. -/
theorem envSafe_fresh (secrets : String → Option Secret) :
    Safe (envDiscipline config env) (performLast config) (EnvState.fresh secrets) := by
  refine safe_start ?_ fun _ => rfl
  constructor
  case coherent =>
    exact
      { asks := fun _ mem => nomatch mem
        returns := fun _ mem => nomatch mem
        fresh := fun _ mem => nomatch mem
        latest := fun _ mem => nomatch mem }
  case cached_stamped => exact fun _ _ isCached => nomatch isCached
  case cached_from => exact fun _ _ isCached => nomatch isCached
  case cached_latest => exact fun _ _ _ isCached => nomatch isCached
  case held_latest => exact fun _ _ isHeld => nomatch isHeld
  case held_le => exact fun _ _ isHeld => nomatch isHeld
  case settled_le => exact fun _ mem => nomatch mem
  case created_settled => exact fun _ mem => nomatch mem
  case began_le => exact fun _ mem => nomatch mem

/-- **The right secret, and the latest one.** Where `getEnv` says development or production and `ENV`
is not `dev`, it is so in every state of every run in which a creation goes on only when no other call
for its name holds an older answer, and no unscoped call falls back to a local variable under a name
with the prefix. -/
theorem envSecrets_coherent (isEnv : config.getEnv = .ok env) (remote : env.isLocal = false)
    (notDev : (config.getString "ENV").map String.toLower ≠ some "dev")
    (secrets : String → Option Secret) {moves : List EnvMove}
    (orderly : Along (envStep config) (Orderly config env) (EnvState.fresh secrets) moves) :
    Throughout (envStep config) (fun m => Coherent config env m.world) (EnvState.fresh secrets)
      moves :=
  throughout_of_along
    (fun _ _ _ safe meets taken => envStep_keeps isEnv remote notDev safe meets taken)
    (fun _ safe => safe.inv.coherent) (envSafe_fresh secrets) orderly

/-- A caller that awaits each of its calls, and is the only one, meets the condition. -/
theorem orderly_alone (isEnv : config.getEnv = .ok env) (remote : env.isLocal = false)
    (notDev : (config.getString "ENV").map String.toLower ≠ some "dev")
    (secrets : String → Option Secret) {moves : List EnvMove}
    (ofTask : ∀ move ∈ moves, move.OfTask t)
    (unshadowed : ∀ t' call, .start t' call ∈ moves → Unshadowed config env call) :
    Along (envStep config) (Orderly config env) (EnvState.fresh secrets) moves := by
  have run : ∀ m : EnvState, Safe (envDiscipline config env) (performLast config) m →
      (∀ t', t' ≠ t → m.tasks t' = .idle) → Along (envStep config) (Orderly config env) m moves := by
    induction moves with
    | nil => exact fun _ _ _ => trivial
    | cons move moves ih =>
      intro m safe idle
      have first : move.OfTask t := ofTask move (List.mem_cons_self ..)
      have own : ∀ t' held, m.world.held t' = some held → t' = t := by
        intro t' held isHeld
        by_contra other
        have holdsNothing := safe.tasks t'
        rw [idle t' other] at holdsNothing
        cases isHeld.symm.trans holdsNothing
      have orderly : Orderly config env m move := by
        refine ⟨fun t' call isStart => unshadowed t' call ?_, fun t' choice c k _ _ => ?_⟩
        · rw [← isStart]
          exact List.mem_cons_self ..
        · cases c with
          | aws t₁ call command => trivial
          | turn t₁ call => cases call with
            | read secretName useEnvScopedName => trivial
            | create secretName secret =>
              intro held isHeld t₂ held' isHeld' _
              obtain rfl := own t₁ held isHeld
              obtain rfl := own t₂ held' isHeld'
              rw [isHeld] at isHeld'
              cases isHeld'
              exact le_rfl
      refine along_cons.mpr ⟨orderly, fun m' taken => ?_⟩
      refine ih (fun move' mem => ofTask move' (List.mem_cons_of_mem _ mem))
        (fun t' call mem => unshadowed t' call (List.mem_cons_of_mem _ mem)) m'
        (envStep_keeps isEnv remote notDev safe orderly taken) fun t' other => ?_
      exact (asyncStep_tasks_of_ne _ _ _ first other taken).trans (idle t' other)
  exact run _ (envSafe_fresh secrets) fun _ _ => rfl

end

/-- A configuration with `ENV` and the local variable `KEY`, and secrets that are no JSON. -/
def configOf (value : String) : EnvConfig where
  processEnv key := if key = "ENV" then some value else if key = "KEY" then some "local" else none
  parseJson _ := none

/-- A caller that reads, creates, and reads what was cached. -/
theorem envSecrets_coherent_alone :
    Throughout (envStep (configOf "Production"))
      (fun m => Coherent (configOf "Production") .Production m.world)
      (EnvState.fresh fun _ => none)
      [.start 0 (.read "KEY" true),
        .perform 0 (.aws (.fails (.aws { name := some "ResourceNotFoundException" }))), .resume 0,
        .perform 0 .turned, .resume 0,
        .start 0 (.create "PROD_KEY" (.string "new")), .perform 0 (.aws .succeeds), .resume 0,
        .perform 0 .turned, .resume 0, .outside (.clock 1000), .start 0 (.read "KEY" true)] := by
  have isEnv : (configOf "Production").getEnv = .ok .Production := by decide +kernel
  have notDev : ((configOf "Production").getString "ENV").map String.toLower ≠ some "dev" := by
    decide +kernel
  refine envSecrets_coherent isEnv rfl notDev _ (orderly_alone (t := 0) isEnv rfl notDev _ ?_ ?_)
  · simp only [List.forall_mem_cons, List.not_mem_nil, false_implies, implies_true, and_true]
    exact ⟨rfl, rfl, rfl, rfl, rfl, rfl, rfl, rfl, rfl, rfl, trivial, rfl⟩
  · intro t' call mem
    simp only [List.mem_cons, List.not_mem_nil, Move.start.injEq, reduceCtorEq, or_false,
      false_or] at mem
    rcases mem with ⟨_, rfl⟩ | ⟨_, rfl⟩ | ⟨_, rfl⟩ <;> trivial

/-- Where `ENV` is `dev` a read asks for the secret of production; and what was answered before a
creation, and goes on after it, is cached and returned by a later call. -/
theorem envSecrets_production_and_stale :
    (¬Throughout (envStep (configOf "dev"))
        (fun m => Coherent (configOf "dev") .Development m.world) (EnvState.fresh fun _ => none)
        [.start 0 (.read "KEY" true),
          .perform 0 (.aws (.fails (.aws { name := some "ResourceNotFoundException" })))]) ∧
      ¬Throughout (envStep (configOf "prod"))
        (fun m => Coherent (configOf "prod") .Production m.world) (EnvState.fresh fun _ => none)
        [.start 0 (.read "KEY" true),
          .perform 0 (.aws (.fails (.aws { name := some "ResourceNotFoundException" }))),
          .start 1 (.create "PROD_KEY" (.string "new")), .perform 1 (.aws .succeeds), .resume 1,
          .perform 1 .turned, .resume 1, .resume 0, .perform 0 .turned, .resume 0,
          .start 2 (.read "KEY" true)] := by
  constructor
  · intro coherent
    have asks : ((run (envStep (configOf "dev")) (EnvState.fresh fun _ => none)
        [.start 0 (.read "KEY" true),
          .perform 0 (.aws (.fails (.aws { name := some "ResourceNotFoundException" })))]).map
        fun m => m.world.asked) = some [⟨.read "KEY" true, "PROD_KEY"⟩] := by
      decide +kernel
    obtain ⟨m, ran, isAsked⟩ := Option.map_eq_some_iff.mp asks
    have right := (coherent.of_run ran).asks ⟨.read "KEY" true, "PROD_KEY"⟩
    rw [isAsked] at right
    exact absurd (right (List.mem_cons_self ..) "KEY" rfl) (by decide)
  · intro coherent
    have ends : ((run (envStep (configOf "prod")) (EnvState.fresh fun _ => none)
        [.start 0 (.read "KEY" true),
          .perform 0 (.aws (.fails (.aws { name := some "ResourceNotFoundException" }))),
          .start 1 (.create "PROD_KEY" (.string "new")), .perform 1 (.aws .succeeds), .resume 1,
          .perform 1 .turned, .resume 1, .resume 0, .perform 0 .turned, .resume 0,
          .start 2 (.read "KEY" true)]).map
        fun m => (m.world.returned.head?, m.world.created.head?)) =
        some (some ⟨"KEY", true, "PROD_KEY", some "local", 0, 3, 1, some 0⟩,
          some ⟨"PROD_KEY", 2, 3⟩) := by
      decide +kernel
    obtain ⟨m, ran, isEnd⟩ := Option.map_eq_some_iff.mp ends
    obtain ⟨isReturned, isCreated⟩ := Prod.mk.inj isEnd
    have latest := (coherent.of_run ran).latest _ (List.mem_of_head? isReturned) _
      (List.mem_of_head? isCreated) rfl le_rfl
    exact absurd latest (by decide)

end QuietStorage.Encryption
