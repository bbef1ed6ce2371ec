import QuietStorage.Encryption.KeyDiscipline

/-!
# Encryption.Alone — how a call of the key services may end when nothing else runs

For each function, what it leaves of the state and when it can succeed. A command that fails has no
effect here (`performKept`). Where the server encryption key is there (`KeyThere`), a function changes
no secret but the one that it creates.
-/

set_option autoImplicit false

namespace QuietStorage.Encryption

open Lib

section
variable {Log : Type}

/-- The secrets manager, when a command that fails has no effect. -/
def performKept (keys : Keys Log) (c : SecretCommand) :
    SecretChoice → Option (Keys Log × Except Thrown c.Answer)
  | .loses _ => none
  | choice => performSecret keys c choice

theorem performKept_performed {keys keys' : Keys Log} {c : SecretCommand} {choice : SecretChoice}
    {r : Except Thrown c.Answer} (performed : performKept keys c choice = some (keys', r)) :
    performSecret keys c choice = some (keys', r) ∧ ∀ e, choice ≠ .loses e := by
  cases choice with
  | loses e => cases performed
  | succeeds => exact ⟨performed, fun _ isIt => by cases isIt⟩
  | valueless => exact ⟨performed, fun _ isIt => by cases isIt⟩
  | fails e => exact ⟨performed, fun _ isIt => by cases isIt⟩

/-- An error that is neither an absence nor worth another attempt. -/
def accessDenied : Thrown := .aws { name := some "AccessDeniedException" }

variable {keys keys' : Keys Log}

/-! ## The wrapper service -/

theorem fetch_ends {secretName : String} {r : Except Thrown (Option Secret)}
    (ended : Ends performKept (AWSSecretsService.fetch secretName) keys keys' r) :
    keys' = keys ∧ FetchEnds keys secretName keys r := by
  unfold AWSSecretsService.fetch at ended
  rcases ends_bind.mp ended with ⟨keys₁, response, sent, rest⟩ | ⟨e, sent, rfl⟩
  · obtain ⟨choice, performed⟩ := ends_send.mp sent
    obtain ⟨rfl, responds⟩ := getSecretValue_performed (performKept_performed performed).1
    rcases responds with rfl | ⟨secret, stored, rfl⟩
    · obtain ⟨rfl, rfl⟩ := rest
      exact ⟨rfl, fun notFound => by cases notFound⟩
    · cases secret with
      | string text =>
        obtain ⟨rfl, rfl⟩ := rest
        exact ⟨rfl, Option.some_ne_none _, stored⟩
      | binary bytes =>
        obtain ⟨rfl, rfl⟩ := rest
        exact ⟨rfl, Option.some_ne_none _, stored⟩
  · obtain ⟨choice, performed⟩ := ends_send.mp sent
    exact getSecretValue_performed (performKept_performed performed).1

theorem sleep_ends {ms : Nat} {r : Except Thrown Unit}
    (sent : Ends performKept (Async.send (SecretCommand.sleep ms)) keys keys' r) :
    keys' = keys := by
  obtain ⟨choice, performed⟩ := ends_send.mp sent
  have performed := (performKept_performed performed).1
  dsimp only [performSecret] at performed
  split at performed
  · cases performed
    rfl
  · cases performed

/-- A fetch for which an absent secret is an answer, with what is done about any other error. -/
theorem fetch_catch_ends {secretName : String} {otherwise : Thrown → KeyM Log (Option Secret)}
    {r : Except Thrown (Option Secret)}
    (ended : Ends performKept (MonadExcept.tryCatch (AWSSecretsService.fetch secretName) fun e =>
      if isSecretNotFoundError e then pure none else otherwise e) keys keys' r)
    (others : ∀ e, Ends performKept (otherwise e) keys keys' r →
      keys' = keys ∧ ∀ secret, r = .ok secret → keys.secrets secretName = secret) :
    keys' = keys ∧ ∀ secret, r = .ok secret → keys.secrets secretName = secret := by
  rcases ends_tryCatch.mp ended with ⟨a, fetched, rfl⟩ | ⟨keys₁, e, fetched, caught⟩
  · obtain ⟨same, ends⟩ := fetch_ends fetched
    refine ⟨same, ?_⟩
    rintro secret ⟨⟩
    exact ends.2
  · obtain ⟨rfl, ends⟩ := fetch_ends fetched
    split at caught
    · next notFound =>
      obtain ⟨rfl, rfl⟩ := caught
      refine ⟨rfl, ?_⟩
      rintro secret ⟨⟩
      exact ends notFound
    · exact others e caught

theorem attempt_ends {secretName : String} {left : Nat} {r : Except Thrown (Option Secret)}
    (ended : Ends performKept (AWSSecretsService.attempt secretName left) keys keys' r) :
    keys' = keys ∧ ∀ secret, r = .ok secret → keys.secrets secretName = secret := by
  induction left with
  | zero =>
    refine fetch_catch_ends ended fun e caught => ?_
    obtain ⟨rfl, rfl⟩ := caught
    refine ⟨rfl, ?_⟩
    rintro secret ⟨⟩
  | succ left ih =>
    refine fetch_catch_ends ended fun e caught => ?_
    split at caught
    · rcases ends_bind.mp caught with ⟨keys₂, _, slept, rest⟩ | ⟨e', slept, rfl⟩
      · cases sleep_ends slept
        exact ih rest
      · refine ⟨sleep_ends slept, ?_⟩
        rintro secret ⟨⟩
    · obtain ⟨rfl, rfl⟩ := caught
      refine ⟨rfl, ?_⟩
      rintro secret ⟨⟩

theorem get_ends {env : Environment} (remote : env.isLocal = false) {secretName : String}
    {r : Except Thrown (Option Secret)}
    (ended : Ends performKept (AWSSecretsService.get env secretName) keys keys' r) :
    keys' = keys ∧ ∀ secret, r = .ok secret → keys.secrets secretName = secret := by
  unfold AWSSecretsService.get at ended
  rw [remote, if_neg Bool.false_ne_true] at ended
  exact attempt_ends ended

/-- A fetch can fail with any error that does not say that a stored secret is absent. -/
theorem fetch_fails {secretName : String} {e : Thrown}
    (honest : keys.secrets secretName ≠ none → isSecretNotFoundError e = false) :
    Ends performKept (AWSSecretsService.fetch secretName) keys keys (.error e) := by
  refine ends_bind.mpr (.inr ⟨e, ends_send.mpr ⟨.fails e, ?_⟩, rfl⟩)
  cases stored : keys.secrets secretName with
  | none => simp only [performKept, performSecret, stored]
  | some secret =>
    rw [stored] at honest
    simp only [performKept, performSecret, stored, honest (Option.some_ne_none secret),
      Bool.false_eq_true, if_false]

/-- `get` can return what is stored, or that there is nothing. -/
theorem get_finds {env : Environment} (remote : env.isLocal = false) (keys : Keys Log)
    (secretName : String) :
    Ends performKept (AWSSecretsService.get env secretName) keys keys
      (.ok (keys.secrets secretName)) := by
  unfold AWSSecretsService.get
  rw [remote, if_neg Bool.false_ne_true]
  cases stored : keys.secrets secretName with
  | none =>
    refine ends_tryCatch.mpr (.inr ⟨keys, .aws { name := some "ResourceNotFoundException" }, ?_, ?_⟩)
    · exact fetch_fails fun present => absurd stored present
    · exact ⟨rfl, rfl⟩
  | some secret =>
    refine ends_tryCatch.mpr (.inl ⟨some secret, ends_bind.mpr (.inl ⟨keys, secret.output, ?_, ?_⟩),
      rfl⟩)
    · exact ends_send.mpr ⟨.succeeds, by simp only [performKept, performSecret, stored]⟩
    · cases secret with
      | string text => exact ⟨rfl, rfl⟩
      | binary bytes => exact ⟨rfl, rfl⟩

/-- `get` can fail. -/
theorem get_fails {env : Environment} (remote : env.isLocal = false) (keys : Keys Log)
    (secretName : String) :
    Ends performKept (AWSSecretsService.get env secretName) keys keys (.error accessDenied) := by
  unfold AWSSecretsService.get
  rw [remote, if_neg Bool.false_ne_true]
  refine ends_tryCatch.mpr (.inr ⟨keys, accessDenied, fetch_fails fun _ => rfl, ?_⟩)
  exact ⟨rfl, rfl⟩

theorem create_ends {env : Environment} (remote : env.isLocal = false) {caller : Caller}
    {secretName : String} {secret : Secret} {r : Except Thrown Unit}
    (ended : Ends performKept (AWSSecretsService.create env caller secretName secret) keys keys' r) :
    (r = .ok () ∧ keys.secrets secretName = none ∧
      keys' = keys.store caller secretName secret) ∨ ((∃ e, r = .error e) ∧ keys' = keys) := by
  unfold AWSSecretsService.create at ended
  rw [remote, if_neg Bool.false_ne_true] at ended
  rcases ends_tryCatch.mp ended with ⟨_, sent, rfl⟩ | ⟨keys₁, e, sent, rfl, rfl⟩
  all_goals
    obtain ⟨choice, performed⟩ := ends_send.mp sent
    obtain ⟨performed, kept⟩ := performKept_performed performed
    rcases createSecret_performed performed with ⟨absent, rfl, isOk | ⟨e, isLost⟩⟩ | ⟨rfl, e, isError⟩
  · exact .inl ⟨rfl, absent, rfl⟩
  · exact absurd isLost (kept e)
  · cases isError
  · cases isOk
  · exact absurd isLost (kept e)
  · exact .inr ⟨⟨_, rfl⟩, rfl⟩

/-- `create` can store a secret whose name is absent. -/
theorem create_stores {env : Environment} (remote : env.isLocal = false) (caller : Caller)
    {secretName : String} (secret : Secret) (absent : keys.secrets secretName = none) :
    Ends performKept (AWSSecretsService.create env caller secretName secret) keys
      (keys.store caller secretName secret) (.ok ()) := by
  unfold AWSSecretsService.create
  rw [remote, if_neg Bool.false_ne_true]
  refine ends_tryCatch.mpr (.inl ⟨(), ends_send.mpr ⟨.succeeds, ?_⟩, rfl⟩)
  simp only [performKept, performSecret, absent]

/-! ## The server encryption key -/

variable (config : KeyConfig)

/-- The key that the process will use: the one in its memory, or the stored one. -/
def processKey (keys : Keys Log) (process : Process) : Option Bytes :=
  match keys.serverEncKey process with
  | some key => some key
  | none => storedKey config keys

/-- The process has a server encryption key, or one is stored. -/
def KeyThere (keys : Keys Log) (process : Process) : Prop :=
  keys.serverEncKey process ≠ none ∨
    keys.secrets (ServerKeyManager.getServerEncKeySecretName config.env) ≠ none

variable {config}

theorem setServerEncKey_held {process : Process} {key : Bytes}
    (held : keys.serverEncKey process = some key) :
    ServerKeyManager.setServerEncKey process key keys = keys := by
  unfold ServerKeyManager.setServerEncKey
  rw [← held, Function.update_eq_self]

/-- What `SodiumHelper.fromBase64` computes. -/
def decoded (config : KeyConfig) (text : String) : Except Thrown Bytes :=
  (config.sodium.from_base64 text).mapError (.compound "Payload isn't valid base64")

theorem fromBase64_ends {text : String} :
    EndsIn performKept (fromBase64 config text : KeyM Log Bytes) keys keys
      (decoded config text) := by
  intro keys' r
  unfold fromBase64 decoded
  cases config.sodium.from_base64 text with
  | ok bytes => exact Iff.rfl
  | error e => exact Iff.rfl

/-- With a key there, the process takes it or the call fails; no secret changes. -/
theorem init_ends (remote : config.env.isLocal = false) {caller : Caller}
    (there : KeyThere config keys caller.process) {r : Except Thrown Unit}
    (ended : Ends performKept (ServerKeyManager.initOrRetrieveServerEncKey config caller) keys keys'
      r) :
    (∃ key, processKey config keys caller.process = some key ∧ r = .ok () ∧
      keys' = ServerKeyManager.setServerEncKey caller.process key keys) ∨
      ((∃ e, r = .error e) ∧ keys' = keys) := by
  unfold ServerKeyManager.initOrRetrieveServerEncKey at ended
  rw [ends_get_bind] at ended
  split at ended
  · next key held =>
    obtain ⟨rfl, rfl⟩ := ended
    refine .inl ⟨key, ?_, rfl, (setServerEncKey_held held).symm⟩
    simp only [processKey, held]
  · next unheld =>
    have isStored : processKey config keys caller.process = storedKey config keys := by
      simp only [processKey, unheld]
    rcases ends_bind.mp ended with ⟨keys₁, secret, got, rest⟩ | ⟨e, got, rfl⟩
    · obtain ⟨rfl, found⟩ := get_ends remote got
      have stored := found secret rfl
      split at rest
      · exact absurd stored (there.resolve_left (absurd unheld))
      · next text =>
        rcases ends_bind.mp rest with ⟨keys₂, key, read, taken⟩ | ⟨e, read, rfl⟩
        · obtain ⟨rfl, isKey⟩ := (fromBase64_ends _ _).mp read
          obtain ⟨rfl, rfl⟩ := taken
          refine .inl ⟨key, ?_, rfl, rfl⟩
          rw [isStored, storedKey, stored]
          unfold decoded at isKey
          cases decodes : config.sodium.from_base64 text with
          | ok bytes =>
            rw [decodes] at isKey
            cases isKey
            simp only [Option.bind_some, keyOf, decodes, Except.toOption]
          | error e =>
            rw [decodes] at isKey
            cases isKey
        · exact .inr ⟨⟨e, rfl⟩, ((fromBase64_ends _ _).mp read).1⟩
      · next key =>
        obtain ⟨rfl, rfl⟩ := rest
        refine .inl ⟨key, ?_, rfl, rfl⟩
        rw [isStored, storedKey, stored]
        rfl
    · exact .inr ⟨⟨e, rfl⟩, (get_ends remote got).1⟩

/-- The process can take the key that is there. -/
theorem init_takes (remote : config.env.isLocal = false) {caller : Caller} {key : Bytes}
    (isKey : processKey config keys caller.process = some key) :
    Ends performKept (ServerKeyManager.initOrRetrieveServerEncKey config caller) keys
      (ServerKeyManager.setServerEncKey caller.process key keys) (.ok ()) := by
  unfold ServerKeyManager.initOrRetrieveServerEncKey
  rw [ends_get_bind]
  unfold processKey at isKey
  cases held : keys.serverEncKey caller.process with
  | some key' =>
    rw [held] at isKey
    cases isKey
    exact ⟨setServerEncKey_held held, rfl⟩
  | none =>
    rw [held] at isKey
    obtain ⟨secret, stored, isKey⟩ := Option.bind_eq_some_iff.mp isKey
    refine ends_bind.mpr (.inl ⟨keys, some secret, ?_, ?_⟩)
    · rw [← stored]
      exact get_finds remote keys _
    · cases secret with
      | string text =>
        refine ends_bind.mpr (.inl ⟨keys, key, (fromBase64_ends _ _).mpr ⟨rfl, ?_⟩, rfl, rfl⟩)
        unfold decoded
        cases decodes : config.sodium.from_base64 text with
        | ok bytes =>
          simp only [keyOf, decodes, Except.toOption, Option.some.injEq] at isKey
          rw [isKey]
          rfl
        | error e =>
          simp only [keyOf, decodes, Except.toOption, reduceCtorEq] at isKey
      | binary bytes =>
        cases isKey
        exact ⟨rfl, rfl⟩

/-- Without a key, the process can make one and store it. -/
theorem init_makes (remote : config.env.isLocal = false) {caller : Caller}
    (missing : ¬KeyThere config keys caller.process) :
    ∃ keys', Ends performKept (ServerKeyManager.initOrRetrieveServerEncKey config caller) keys keys'
        (.ok ()) ∧
      keys'.secrets (ServerKeyManager.getServerEncKeySecretName config.env) ≠ none := by
  obtain ⟨unheld, absent⟩ := not_or.mp missing
  rw [not_not] at unheld absent
  unfold ServerKeyManager.initOrRetrieveServerEncKey
  simp only [ends_get_bind, unheld]
  have finds := get_finds remote keys
    (ServerKeyManager.getServerEncKeySecretName config.env)
  rw [absent] at finds
  have stores : Ends performKept (AWSSecretsService.create config.env caller
      (ServerKeyManager.getServerEncKeySecretName config.env) _) { keys with drawn := keys.drawn + 1 }
      _ (.ok ()) :=
    create_stores remote caller (.string (config.sodium.to_base64
      (keys.random keys.drawn crypto_secretbox_KEYBYTES))) absent
  refine ⟨_, ends_bind.mpr (.inl ⟨keys, none, finds, ends_bind.mpr (.inl ⟨_, _, ⟨rfl, rfl⟩,
    ends_bind.mpr (.inl ⟨_, (), stores, rfl, rfl⟩)⟩)⟩), ?_⟩
  simp only [ServerKeyManager.setServerEncKey, Keys.store, Function.update_self, ne_eq,
    reduceCtorEq, not_false_eq_true]

/-! ## Encryption and the keyrings, in a process that has the key -/

/-- What `decrypt` computes with a key. -/
def opened (config : KeyConfig) (key : Bytes) (encPayload : EncryptedPayload) :
    Except Thrown Bytes :=
  (decoded config encPayload.payload).bind fun box =>
    (decoded config encPayload.nonce).bind fun nonce =>
      config.sodium.crypto_secretbox_open_easy box nonce key

/-- What `retrieveKeyring` reads in a secret. -/
def unlocked (config : KeyConfig) (key : Bytes) (text : String) : Except Thrown Bytes :=
  (config.sodium.parse text).bind fun storedKeyring =>
    opened config key storedKeyring.toEncryptedPayload

/-- The box of a payload with the next nonce that is drawn. -/
def boxed (config : KeyConfig) (keys : Keys Log) (key payload : Bytes) : Except Thrown Bytes :=
  config.sodium.crypto_secretbox_easy payload
    (keys.random keys.drawn crypto_secretbox_NONCEBYTES) key

section
variable {caller : Caller} {key : Bytes} (held : keys.serverEncKey caller.process = some key)
include held

theorem init_held :
    EndsIn performKept (ServerKeyManager.initOrRetrieveServerEncKey config caller) keys keys
      (.ok ()) := by
  intro keys' r
  unfold ServerKeyManager.initOrRetrieveServerEncKey
  simp only [ends_get_bind, held, ends_pure]

theorem readServerEncKey_held :
    EndsIn performKept (ServerKeyManager.readServerEncKey caller.process) keys keys (.ok key) := by
  intro keys' r
  unfold ServerKeyManager.readServerEncKey
  simp only [ends_get_bind, held, ends_pure]

theorem decrypt_held (encPayload : EncryptedPayload) :
    EndsIn performKept (ServerKeyManager.decrypt config caller encPayload) keys keys
      (opened config key encPayload) := by
  unfold ServerKeyManager.decrypt opened
  refine (init_held held).bind ?_
  cases isBox : decoded config encPayload.payload with
  | error e => exact EndsIn.bind_error (isBox ▸ fromBase64_ends)
  | ok box =>
    refine EndsIn.bind (isBox ▸ fromBase64_ends) ?_
    cases isNonce : decoded config encPayload.nonce with
    | error e => exact EndsIn.bind_error (isNonce ▸ fromBase64_ends)
    | ok nonce =>
      refine EndsIn.bind (isNonce ▸ fromBase64_ends) ?_
      exact (readServerEncKey_held held).bind endsIn_ofExcept

/-- The state after an encryption: a nonce was drawn, and the key was used. -/
def Keys.encrypted (keys : Keys Log) (key : Bytes) : Keys Log :=
  { keys with
    drawn := keys.drawn + 1
    encryptedWith := keys.encryptedWith ++ [key] }

theorem encrypt_held (payload : Bytes) :
    EndsIn performKept (ServerKeyManager.encrypt config caller payload none) keys
      (keys.encrypted key)
      ((boxed config keys key payload).map fun box =>
        { nonce := config.sodium.to_base64 (keys.random keys.drawn crypto_secretbox_NONCEBYTES)
          payload := config.sodium.to_base64 box }) := by
  have held' : ({ keys with drawn := keys.drawn + 1 } : Keys Log).serverEncKey caller.process =
      some key := held
  unfold ServerKeyManager.encrypt boxed
  refine (init_held held).bind ?_
  have draws : EndsIn performKept (ServerKeyManager.nonceOrRandom none) keys
      { keys with drawn := keys.drawn + 1 }
      (.ok (keys.random keys.drawn crypto_secretbox_NONCEBYTES)) := fun _ _ => Iff.rfl
  refine draws.bind ((readServerEncKey_held held').bind ?_)
  have boxes : EndsIn performKept (ServerKeyManager.secretbox config payload
        (keys.random keys.drawn crypto_secretbox_NONCEBYTES) key)
      { keys with drawn := keys.drawn + 1 } (keys.encrypted key)
      (config.sodium.crypto_secretbox_easy payload
        (keys.random keys.drawn crypto_secretbox_NONCEBYTES) key) := endsIn_ofExcept
  cases isBox : config.sodium.crypto_secretbox_easy payload
      (keys.random keys.drawn crypto_secretbox_NONCEBYTES) key with
  | error e => exact EndsIn.bind_error (isBox ▸ boxes)
  | ok box => exact EndsIn.bind (isBox ▸ boxes) fun _ _ => Iff.rfl

end

section
variable {caller : Caller} {key : Bytes}

theorem setServerEncKey_holds (process : Process) (key : Bytes) (keys : Keys Log) :
    (ServerKeyManager.setServerEncKey process key keys).serverEncKey process = some key :=
  Function.update_self ..

/-- A keyring is stored under a name that was absent, or no secret changes. -/
theorem storeKeyring_ends (remote : config.env.isLocal = false)
    (held : keys.serverEncKey caller.process = some key) {id : String} {keyring : Bytes}
    {type : StoredKeyRingType} {r : Except Thrown StoredKeyring}
    (ended : Ends performKept (ServerKeyManager.storeKeyring config caller id keyring type) keys keys'
      r) :
    (keys.secrets (ServerKeyManager.generateSecretName config id type) = none ∧
      ∃ box, boxed config keys key keyring = .ok box) ∨
      ((∃ e, r = .error e) ∧ keys'.secrets = keys.secrets) := by
  have body := ((init_held held).bind_ends).mp ended
  rcases ends_tryCatch.mp body with ⟨secret, stored, rfl⟩ | ⟨keys₁, e, thrown, rfl, rfl⟩
  · left
    rcases ends_bind.mp stored with ⟨keys₂, encPayload, encrypted, rest⟩ | ⟨e, _, isError⟩
    · obtain ⟨rfl, isBox⟩ := (encrypt_held held keyring _ _).mp encrypted
      rcases ends_bind.mp rest with ⟨keys₃, _, created, _⟩ | ⟨e, _, isError⟩
      · rcases create_ends remote created with ⟨_, absent, _⟩ | ⟨⟨e, isError⟩, _⟩
        · refine ⟨absent, ?_⟩
          cases computed : boxed config keys key keyring with
          | ok box => exact ⟨box, rfl⟩
          | error e =>
            rw [computed] at isBox
            cases isBox
        · cases isError
      · cases isError
    · cases isError
  · right
    refine ⟨⟨_, rfl⟩, ?_⟩
    rcases ends_bind.mp thrown with ⟨keys₂, encPayload, encrypted, rest⟩ | ⟨e', encrypted, _⟩
    · obtain ⟨rfl, _⟩ := (encrypt_held held keyring _ _).mp encrypted
      rcases ends_bind.mp rest with ⟨keys₃, _, _, ended⟩ | ⟨e', created, _⟩
      · cases ended.2
      · rcases create_ends remote created with ⟨isOk, _⟩ | ⟨_, rfl⟩
        · cases isOk
        · rfl
    · obtain ⟨rfl, _⟩ := (encrypt_held held keyring _ _).mp encrypted
      rfl

/-- A keyring can be stored under a name that is absent. -/
theorem storeKeyring_stores (remote : config.env.isLocal = false)
    (held : keys.serverEncKey caller.process = some key) {id : String} {keyring : Bytes}
    {type : StoredKeyRingType}
    (absent : keys.secrets (ServerKeyManager.generateSecretName config id type) = none)
    {box : Bytes} (isBox : boxed config keys key keyring = .ok box) :
    ∃ keys' secret, Ends performKept
        (ServerKeyManager.storeKeyring config caller id keyring type) keys keys' (.ok secret) ∧
      keys'.secrets (ServerKeyManager.generateSecretName config id type) ≠ none ∧
      keys'.serverEncKey = keys.serverEncKey := by
  have encrypted : Ends performKept (ServerKeyManager.encrypt config caller keyring none) keys _ _ :=
    (encrypt_held held keyring).ends
  rw [isBox] at encrypted
  have created : Ends performKept (AWSSecretsService.create config.env caller
      (ServerKeyManager.generateSecretName config id type) _) (keys.encrypted key) _ (.ok ()) :=
    create_stores remote caller (.string (config.sodium.stringify
      { nonce := config.sodium.to_base64 (keys.random keys.drawn crypto_secretbox_NONCEBYTES)
        payload := config.sodium.to_base64 box
        type := type })) absent
  refine ⟨_, _, (init_held held).bind_ends.mpr (ends_tryCatch.mpr (.inl ⟨_, ends_bind.mpr (.inl
    ⟨_, _, encrypted, ends_bind.mpr (.inl ⟨_, (), created, rfl, rfl⟩)⟩), rfl⟩)), ?_, rfl⟩
  simp only [Keys.store, Function.update_self, ne_eq, reduceCtorEq, not_false_eq_true]

/-- What is done with the text of a stored keyring. -/
theorem readKeyring_held (held : keys.serverEncKey caller.process = some key) (text : String) :
    EndsIn performKept (do
        let storedKeyring ← MonadExcept.ofExcept (config.sodium.parse text)
        let keyring ← ServerKeyManager.decrypt config caller storedKeyring.toEncryptedPayload
        pure (some keyring)) keys keys ((unlocked config key text).map some) := by
  unfold unlocked
  cases parsed : config.sodium.parse text with
  | error e => exact EndsIn.bind_error endsIn_ofExcept
  | ok storedKeyring =>
    refine EndsIn.bind endsIn_ofExcept ?_
    have decrypted : EndsIn performKept (ServerKeyManager.decrypt config caller
        storedKeyring.toEncryptedPayload) keys keys _ := decrypt_held held _
    cases opens : opened config key storedKeyring.toEncryptedPayload with
    | error e =>
      rw [opens] at decrypted
      simp only [Except.bind, opens]
      exact decrypted.bind_error
    | ok keyring =>
      rw [opens] at decrypted
      simp only [Except.bind, opens]
      exact decrypted.bind fun _ _ => Iff.rfl

/-- With a key there, the process takes it or the call fails; no secret changes. A keyring that is
returned is in the stored secret. -/
theorem retrieveKeyring_ends (remote : config.env.isLocal = false)
    (there : KeyThere config keys caller.process) {id : String} {type : StoredKeyRingType}
    {r : Except Thrown (Option Bytes)}
    (ended : Ends performKept (ServerKeyManager.retrieveKeyring config caller id type) keys keys'
      r) :
    (∃ e, r = .error e) ∧ keys'.secrets = keys.secrets ∨
      ∃ key, processKey config keys caller.process = some key ∧
        keys' = ServerKeyManager.setServerEncKey caller.process key keys ∧
        ∀ keyring, r = .ok (some keyring) → ∃ text,
          keys.secrets (ServerKeyManager.generateSecretName config id type) =
            some (.string text) ∧ unlocked config key text = .ok keyring := by
  rcases ends_bind.mp ended with ⟨keys₁, _, began, rest⟩ | ⟨e, began, rfl⟩
  · rcases init_ends remote there began with ⟨key, isKey, _, rfl⟩ | ⟨⟨e, isError⟩, _⟩
    · have holds := setServerEncKey_holds caller.process key keys
      rcases ends_tryCatch.mp rest with ⟨found, read, rfl⟩ | ⟨keys₂, e, thrown, rfl, rfl⟩
      · right
        refine ⟨key, isKey, ?_⟩
        rcases ends_bind.mp read with ⟨keys₂, secret, got, rest⟩ | ⟨e, _, isError⟩
        · obtain ⟨rfl, isSecret⟩ := get_ends remote got
          have stored := isSecret secret rfl
          split at rest
          · obtain ⟨rfl, isOk⟩ := rest
            cases isOk
            exact ⟨rfl, fun keyring isIt => by cases isIt⟩
          · cases rest.2
          · next text =>
            obtain ⟨rfl, isOk⟩ := (readKeyring_held holds text _ _).mp rest
            refine ⟨rfl, fun keyring isIt => ⟨text, stored, ?_⟩⟩
            cases isIt
            cases unlocks : unlocked config key text with
            | ok keyring' =>
              rw [unlocks] at isOk
              cases isOk
              rfl
            | error e =>
              rw [unlocks] at isOk
              cases isOk
        · cases isError
      · refine .inl ⟨⟨_, rfl⟩, ?_⟩
        rcases ends_bind.mp thrown with ⟨keys₃, secret, got, rest⟩ | ⟨e', got, _⟩
        · obtain ⟨rfl, -⟩ := get_ends remote got
          split at rest
          · cases rest.2
          · rw [rest.1]
            rfl
          · next text =>
            rw [((readKeyring_held holds text _ _).mp rest).1]
            rfl
        · rw [(get_ends remote got).1]
          rfl
    · cases isError
  · rcases init_ends remote there began with ⟨key, _, isOk, _⟩ | ⟨_, rfl⟩
    · cases isOk
    · exact .inl ⟨⟨e, rfl⟩, rfl⟩

/-- A keyring can be retrieved from its secret. -/
theorem retrieveKeyring_reads (remote : config.env.isLocal = false)
    (isKey : processKey config keys caller.process = some key) {id : String}
    {type : StoredKeyRingType} {text : String}
    (stored : keys.secrets (ServerKeyManager.generateSecretName config id type) =
      some (.string text)) {keyring : Bytes} (unlocks : unlocked config key text = .ok keyring) :
    Ends performKept (ServerKeyManager.retrieveKeyring config caller id type) keys
      (ServerKeyManager.setServerEncKey caller.process key keys) (.ok (some keyring)) := by
  have holds := setServerEncKey_holds caller.process key keys
  have finds := get_finds remote (ServerKeyManager.setServerEncKey caller.process key keys)
    (ServerKeyManager.generateSecretName config id type)
  have isText : (ServerKeyManager.setServerEncKey caller.process key keys).secrets
      (ServerKeyManager.generateSecretName config id type) = some (.string text) := stored
  rw [isText] at finds
  have reads : Ends performKept _ _ _ ((unlocked config key text).map some) :=
    (readKeyring_held holds text).ends
  rw [unlocks] at reads
  exact ends_bind.mpr (.inl ⟨_, (), init_takes remote isKey, ends_tryCatch.mpr (.inl
    ⟨some keyring, ends_bind.mpr (.inl ⟨_, _, finds, reads⟩), rfl⟩)⟩)

end

end

end QuietStorage.Encryption
