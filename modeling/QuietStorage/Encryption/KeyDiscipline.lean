import QuietStorage.Encryption.KeyManager

/-!
# Encryption.KeyDiscipline — what every call of the key services keeps

`keyDiscipline`: the key that a process holds, and every key that was used, is the one in the secrets
manager; secrets are never replaced. Under it each function of the services has one lemma that says
how it may end (`get_meets`, `create_meets`, .., `retrieveKeyring_meets`), and its callers use that
lemma only.

`Readable` is what a stored keyring is good for: with the stored key, its secret decrypts to the
bytes that were stored.
-/

set_option autoImplicit false

namespace QuietStorage.Encryption

open Lib

section
variable {Log : Type}

/-- What stays as other calls go on: secrets are not replaced, a process keeps its key, and the log
is only added to. -/
structure Keys.Grows (keys keys' : Keys Log) : Prop where
  secrets : ∀ name secret, keys.secrets name = some secret →
    keys'.secrets name = some secret ∧ keys'.creator name = keys.creator name
  serverEncKey : ∀ process key, keys.serverEncKey process = some key →
    keys'.serverEncKey process = some key
  log : ∃ more, keys'.log = keys.log ++ more

namespace Keys.Grows

theorem refl (keys : Keys Log) : keys.Grows keys where
  secrets := fun _ _ found => ⟨found, rfl⟩
  serverEncKey := fun _ _ found => found
  log := ⟨[], (List.append_nil _).symm⟩

theorem trans {keys mid keys' : Keys Log} (first : keys.Grows mid) (second : mid.Grows keys') :
    keys.Grows keys' where
  secrets := by
    intro name secret found
    obtain ⟨found, creator⟩ := first.secrets name secret found
    obtain ⟨found, creator'⟩ := second.secrets name secret found
    exact ⟨found, creator'.trans creator⟩
  serverEncKey := fun process key found =>
    second.serverEncKey process key (first.serverEncKey process key found)
  log := by
    obtain ⟨more, isLog⟩ := first.log
    obtain ⟨more', isLog'⟩ := second.log
    exact ⟨more ++ more', by rw [isLog', isLog, List.append_assoc]⟩

/-- A name that is absent now was absent before. -/
theorem absent {keys keys' : Keys Log} (grown : keys.Grows keys') {name : String}
    (absent : keys'.secrets name = none) : keys.secrets name = none := by
  apply Option.eq_none_iff_forall_ne_some.mpr
  intro secret found
  have later := (grown.secrets name secret found).1
  rw [absent] at later
  cases later

end Keys.Grows

variable (config : KeyConfig)

/-- The key that a process takes from a secret. -/
def keyOf (secret : Secret) : Option Bytes :=
  match secret with
  | .string text => (config.sodium.from_base64 text).toOption
  | .binary serverEncKey => some serverEncKey

/-- The server encryption key that is stored. -/
def storedKey (keys : Keys Log) : Option Bytes :=
  (keys.secrets (ServerKeyManager.getServerEncKeySecretName config.env)).bind (keyOf config)

theorem storedKey_mono {keys keys' : Keys Log} (grown : keys.Grows keys') {key : Bytes}
    (stored : storedKey config keys = some key) : storedKey config keys' = some key := by
  obtain ⟨secret, found, isKey⟩ := Option.bind_eq_some_iff.mp stored
  exact Option.bind_eq_some_iff.mpr ⟨secret, (grown.secrets _ _ found).1, isKey⟩

/-- What is known beyond the keys: of each entry of the log, and of who creates which secret. -/
structure KeyRules (Log : Type) where
  Known : Keys Log → Log → Prop
  Creates : Keys Log → Caller → String → Prop
  known_mono : ∀ keys keys' entry, keys.Grows keys' → Known keys entry → Known keys' entry
  creates_mono : ∀ keys keys' caller name, keys.Grows keys' → Creates keys caller name →
    Creates keys' caller name
  /-- Every call may create the server encryption key. -/
  creates_key : ∀ keys caller,
    Creates keys caller (ServerKeyManager.getServerEncKeySecretName config.env)

/-- **The invariant**: the stored key is the one that processes hold and use, and the rules hold. -/
structure OneStoredKey (rules : KeyRules config Log) (keys : Keys Log) : Prop where
  held : ∀ process key, keys.serverEncKey process = some key → storedKey config keys = some key
  used : ∀ key ∈ keys.encryptedWith, storedKey config keys = some key
  log : ∀ entry ∈ keys.log, rules.Known keys entry
  created : ∀ name caller, keys.creator name = some caller → rules.Creates keys caller name

/-- What every call keeps. -/
def keyDiscipline (rules : KeyRules config Log) : Discipline (Keys Log) :=
  .uniform (OneStoredKey config rules) Keys.Grows Keys.Grows.refl Keys.Grows.trans

/-- Nothing of the keys belongs to one task. -/
theorem Keys.Grows.acts {config : KeyConfig} {rules : KeyRules config Log} {t : Nat}
    {keys keys' : Keys Log} (grown : keys.Grows keys') :
    (keyDiscipline config rules).Acts t keys keys' :=
  ⟨grown, fun _ _ => trivial⟩

section
variable {config} {rules : KeyRules config Log} {keys : Keys Log} {t : Nat}

/-- The secrets grow, as they may; no key is taken or used. -/
theorem OneStoredKey.grow (inv : OneStoredKey config rules keys) {keys' : Keys Log}
    (grown : keys.Grows keys') (serverEncKey : keys'.serverEncKey = keys.serverEncKey)
    (encryptedWith : keys'.encryptedWith = keys.encryptedWith) (log : keys'.log = keys.log)
    (created : ∀ name caller, keys'.creator name = some caller →
      keys.creator name = some caller ∨ rules.Creates keys caller name) :
    OneStoredKey config rules keys' where
  held := by
    intro process key holds
    rw [serverEncKey] at holds
    exact storedKey_mono config grown (inv.held process key holds)
  used := by
    intro key mem
    rw [encryptedWith] at mem
    exact storedKey_mono config grown (inv.used key mem)
  log := by
    intro entry mem
    rw [log] at mem
    exact rules.known_mono keys keys' entry grown (inv.log entry mem)
  created := by
    intro name caller isCreator
    have creates : rules.Creates keys caller name := by
      rcases created name caller isCreator with earlier | creates
      · exact inv.created name caller earlier
      · exact creates
    exact rules.creates_mono keys keys' caller name grown creates

theorem store_grows (keys : Keys Log) (caller : Caller) {name : String} (secret : Secret)
    (absent : keys.secrets name = none) : keys.Grows (keys.store caller name secret) :=
  { Keys.Grows.refl keys with
    secrets := by
      intro name' secret' found
      have other : name' ≠ name := by
        intro same
        rw [same, absent] at found
        cases found
      exact ⟨(Function.update_of_ne other _ _).trans found, Function.update_of_ne other _ _⟩ }

variable (rules) in
/-- The commands of a server that is not local, when they create what the rules allow. -/
def SecretCommand.Allowed (keys : Keys Log) : SecretCommand → Prop
  | .redisGet _ | .redisSet _ _ => False
  | .createSecret caller name _ => rules.Creates keys caller name
  | _ => True

/-- What a command can have done. -/
theorem performSecret_cases {c : SecretCommand} {keys₀ : Keys Log}
    (allowed : c.Allowed rules keys₀) {choice : SecretChoice} {keys' : Keys Log}
    {r : Except Thrown c.Answer}
    (performed : performSecret keys c choice = some (keys', r)) :
    keys' = keys ∨ ∃ caller name secret, c = .createSecret caller name secret ∧
      keys.secrets name = none ∧ keys' = keys.store caller name secret := by
  cases c with
  | getSecretValue secretId =>
    dsimp only [performSecret] at performed
    split at performed
    · cases performed; exact .inl rfl
    · cases performed; exact .inl rfl
    · split at performed
      · cases performed
      · cases performed; exact .inl rfl
    · cases performed; exact .inl rfl
    · cases performed
  | createSecret caller name secret =>
    dsimp only [performSecret] at performed
    split at performed
    · next absent =>
      cases performed
      exact .inr ⟨caller, name, secret, rfl, absent, rfl⟩
    · next absent =>
      cases performed
      exact .inr ⟨caller, name, secret, rfl, absent, rfl⟩
    · cases performed; exact .inl rfl
    · cases performed
  | redisGet _ => exact allowed.elim
  | redisSet _ _ => exact allowed.elim
  | sleep ms =>
    dsimp only [performSecret] at performed
    split at performed
    · cases performed; exact .inl rfl
    · cases performed

/-- **A command keeps the discipline**; what is left is how its answer is used. -/
theorem meets_command (c : SecretCommand) (allowed : c.Allowed rules keys)
    {Q : Keys Log → Except Thrown c.Answer → Prop}
    (ends : ∀ keys₁ keys₂ keys₃ choice r, keys.Grows keys₁ → keys₂.Grows keys₃ →
      performSecret keys₁ c choice = some (keys₂, r) → Q keys₃ r) :
    Meets (keyDiscipline config rules) t performSecret Q (Async.send c) keys := by
  refine meets_send fun keys₁ rely inv choice keys₂ r performed => ?_
  rcases performSecret_cases allowed performed with
    same | ⟨caller, name, secret, isIt, absent, isNext⟩
  · subst same
    exact ⟨inv, (Keys.Grows.refl _).acts, fun keys₃ rely₃ _ =>
      ends keys₂ keys₂ keys₃ choice r rely.grows rely₃.grows performed⟩
  · have stored := store_grows keys₁ caller secret absent
    have inv₂ : OneStoredKey config rules (keys₁.store caller name secret) := by
      refine OneStoredKey.grow inv stored rfl rfl rfl fun name' caller' isCreator => ?_
      by_cases same : name' = name
      · rw [same] at isCreator
        cases (Function.update_self ..).symm.trans isCreator
        subst isIt
        rw [same]
        exact .inr (rules.creates_mono keys keys₁ _ _ rely.grows allowed)
      · exact .inl ((Function.update_of_ne same ..).symm.trans isCreator)
    rw [← isNext] at stored inv₂
    exact ⟨inv₂, stored.acts, fun keys₃ rely₃ _ =>
      ends keys₁ keys₂ keys₃ choice r rely.grows rely₃.grows performed⟩

/-! ## The wrapper service -/

/-- A secret that is fetched is stored, and when an error says that there is none the name was
absent. -/
def FetchEnds (keys : Keys Log) (secretName : String) (keys' : Keys Log) :
    Except Thrown (Option Secret) → Prop
  | .ok secret => secret ≠ none ∧ keys'.secrets secretName = secret
  | .error e => isSecretNotFoundError e = true → keys.secrets secretName = none

/-- A secret that `get` returns is stored, and a name that it does not find was absent when it
began. -/
def GetEnds (keys : Keys Log) (secretName : String) (keys' : Keys Log) :
    Except Thrown (Option Secret) → Prop
  | .ok (some secret) => keys'.secrets secretName = some secret
  | .ok none => keys.secrets secretName = none
  | .error _ => True

/-- The response is that of the stored secret, or has no value. -/
def Responds (keys : Keys Log) (secretName : String) (keys' : Keys Log) :
    Except Thrown GetSecretValueCommandOutput → Prop
  | .ok response => response = {} ∨
      ∃ secret, keys'.secrets secretName = some secret ∧ response = secret.output
  | .error e => isSecretNotFoundError e = true → keys.secrets secretName = none

/-- What `GetSecretValue` can answer. -/
theorem getSecretValue_performed {secretName : String} {choice : SecretChoice} {keys' : Keys Log}
    {r : Except Thrown GetSecretValueCommandOutput}
    (performed : performSecret keys (.getSecretValue secretName) choice = some (keys', r)) :
    keys' = keys ∧ Responds keys secretName keys r := by
  dsimp only [performSecret] at performed
  split at performed
  · next secret stored =>
    cases performed
    exact ⟨rfl, .inr ⟨secret, stored, rfl⟩⟩
  · cases performed
    exact ⟨rfl, .inl rfl⟩
  · split at performed
    · cases performed
    · next another =>
      cases performed
      exact ⟨rfl, fun notFound => absurd notFound another⟩
  · next absent =>
    cases performed
    exact ⟨rfl, fun _ => absent⟩
  · cases performed

/-- What `CreateSecret` can have done. -/
theorem createSecret_performed {caller : Caller} {secretName : String} {secret : Secret}
    {choice : SecretChoice} {keys' : Keys Log} {r : Except Thrown Unit}
    (performed : performSecret keys (.createSecret caller secretName secret) choice =
      some (keys', r)) :
    (keys.secrets secretName = none ∧ keys' = keys.store caller secretName secret ∧
      (r = .ok () ∨ ∃ e, choice = .loses e)) ∨ (keys' = keys ∧ ∃ e, r = .error e) := by
  dsimp only [performSecret] at performed
  split at performed
  · next absent =>
    cases performed
    exact .inl ⟨absent, rfl, .inl rfl⟩
  · next absent =>
    cases performed
    exact .inl ⟨absent, rfl, .inr ⟨_, rfl⟩⟩
  · cases performed
    exact .inr ⟨rfl, _, rfl⟩
  · cases performed

theorem Responds.within {keys₁ keys' : Keys Log} {secretName : String}
    {r : Except Thrown GetSecretValueCommandOutput} (responds : Responds keys₁ secretName keys₁ r)
    (earlier : keys.Grows keys₁) (later : keys₁.Grows keys') :
    Responds keys secretName keys' r := by
  cases r with
  | ok response =>
    rcases responds with rfl | ⟨secret, stored, rfl⟩
    · exact .inl rfl
    · exact .inr ⟨secret, (later.secrets _ _ stored).1, rfl⟩
  | error e => exact fun notFound => earlier.absent (responds notFound)

theorem getSecretValue_meets (secretName : String) :
    Meets (keyDiscipline config rules) t performSecret (Responds keys secretName)
      (Async.send (SecretCommand.getSecretValue secretName)) keys := by
  apply meets_command (.getSecretValue secretName) trivial
  intro keys₁ keys₂ keys₃ choice r grown grown₃ performed
  obtain ⟨rfl, responds⟩ := getSecretValue_performed performed
  exact responds.within grown grown₃

theorem fetch_meets (inv : OneStoredKey config rules keys) (secretName : String) :
    Meets (keyDiscipline config rules) t performSecret (FetchEnds keys secretName)
      (AWSSecretsService.fetch secretName) keys := by
  unfold AWSSecretsService.fetch
  refine meets_bind inv (getSecretValue_meets secretName) ?_ ?_
  · rintro keys' response _ _ (rfl | ⟨secret, stored, rfl⟩)
    · intro notFound
      cases notFound
    · cases secret with
      | string text => exact ⟨Option.some_ne_none _, stored⟩
      | binary bytes => exact ⟨Option.some_ne_none _, stored⟩
  · exact fun _ _ _ _ thrown => thrown

theorem GetEnds.earlier {keys₁ keys' : Keys Log} {secretName : String}
    {r : Except Thrown (Option Secret)} (ends : GetEnds keys₁ secretName keys' r)
    (grown : keys.Grows keys₁) : GetEnds keys secretName keys' r := by
  cases r with
  | error e => trivial
  | ok secret =>
    cases secret with
    | some secret => exact ends
    | none => exact grown.absent ends

theorem FetchEnds.get {keys' : Keys Log} {secretName : String} {secret : Option Secret}
    (ends : FetchEnds keys secretName keys' (.ok secret)) :
    GetEnds keys secretName keys' (.ok secret) := by
  cases secret with
  | some secret => exact ends.2
  | none => exact absurd rfl ends.1

theorem sleep_meets (ms : Nat) :
    Meets (keyDiscipline config rules) t performSecret (fun _ _ => True)
      (Async.send (SecretCommand.sleep ms)) keys :=
  meets_command (.sleep ms) trivial fun _ _ _ _ _ _ _ _ => trivial

theorem attempt_meets (inv : OneStoredKey config rules keys) (secretName : String)
    (left : Nat) :
    Meets (keyDiscipline config rules) t performSecret (GetEnds keys secretName)
      (AWSSecretsService.attempt secretName left) keys := by
  induction left generalizing keys with
  | zero =>
    refine meets_tryCatch inv (fetch_meets inv secretName) ?_ ?_
    · exact fun _ _ _ _ ends => ends.get
    · intro keys' e _ _ ends
      split
      · next notFound => exact ends notFound
      · trivial
  | succ left ih =>
    refine meets_tryCatch inv (fetch_meets inv secretName) ?_ ?_
    · exact fun _ _ _ _ ends => ends.get
    · intro keys' e inv' grown ends
      split
      · next notFound => exact ends notFound
      · split
        · refine meets_bind inv' (sleep_meets _) ?_ fun _ _ _ _ _ => trivial
          intro keys'' _ inv'' grown' _
          exact (ih inv'').imp inv'' fun _ _ _ _ ends => ends.earlier (grown.trans grown')
        · trivial

theorem get_meets (remote : config.env.isLocal = false)
    (inv : OneStoredKey config rules keys) (secretName : String) :
    Meets (keyDiscipline config rules) t performSecret (GetEnds keys secretName)
      (AWSSecretsService.get config.env secretName) keys := by
  unfold AWSSecretsService.get
  rw [remote, if_neg Bool.false_ne_true]
  exact attempt_meets inv secretName _

/-- A `create` that succeeds has stored its secret under a name that was absent. -/
def CreateEnds (keys : Keys Log) (caller : Caller) (secretName : String) (secret : Secret)
    (keys' : Keys Log) (r : Except Thrown Unit) : Prop :=
  r = .ok () → keys.secrets secretName = none ∧ keys'.secrets secretName = some secret ∧
    keys'.creator secretName = some caller

theorem create_meets (remote : config.env.isLocal = false) (inv : OneStoredKey config rules keys)
    {caller : Caller} {secretName : String} (creates : rules.Creates keys caller secretName)
    (secret : Secret) :
    Meets (keyDiscipline config rules) t performSecret (CreateEnds keys caller secretName secret)
      (AWSSecretsService.create config.env caller secretName secret) keys := by
  unfold AWSSecretsService.create
  rw [remote, if_neg Bool.false_ne_true]
  have created : Meets (keyDiscipline config rules) t performSecret
      (CreateEnds keys caller secretName secret)
      (Async.send (SecretCommand.createSecret caller secretName secret)) keys := by
    apply meets_command (.createSecret caller secretName secret) creates
    intro keys₁ keys₂ keys₃ choice r grown grown₃ performed isOk
    rcases createSecret_performed performed with ⟨absent, rfl, _⟩ | ⟨_, e, isError⟩
    · obtain ⟨stored, creator⟩ := grown₃.secrets secretName secret (Function.update_self ..)
      exact ⟨grown.absent absent, stored, creator.trans (Function.update_self ..)⟩
    · rw [isError] at isOk
      cases isOk
  refine meets_tryCatch inv created (fun _ _ _ _ ends => ends) ?_
  intro keys' e _ _ _ isOk
  cases isOk

/-! ## The server encryption key -/

/-- The process has the key in memory. -/
def Keys.Holds (keys : Keys Log) (process : Process) : Prop :=
  ∃ key, keys.serverEncKey process = some key

theorem Keys.Holds.mono {keys' : Keys Log} {process : Process} (holds : keys.Holds process)
    (grown : keys.Grows keys') : keys'.Holds process := by
  obtain ⟨key, held⟩ := holds
  exact ⟨key, grown.serverEncKey process key held⟩

/-- When it has ended well, the process has the key. -/
def Initialized (process : Process) (keys' : Keys Log) (r : Except Thrown Unit) : Prop :=
  r = .ok () → keys'.Holds process

theorem setServerEncKey_meets (inv : OneStoredKey config rules keys)
    (process : Process) {key : Bytes} (stored : storedKey config keys = some key) :
    Meets (keyDiscipline config rules) t performSecret (Initialized process)
      (Async.modify (ServerKeyManager.setServerEncKey process key)) keys := by
  have same : ∀ process' key', Function.update keys.serverEncKey process (some key) process' =
      some key' → storedKey config keys = some key' := by
    intro process' key' held
    by_cases isIt : process' = process
    · rw [isIt, Function.update_self] at held
      rw [stored, held]
    · rw [Function.update_of_ne isIt] at held
      exact inv.held process' key' held
  have grown : keys.Grows (ServerKeyManager.setServerEncKey process key keys) :=
    { Keys.Grows.refl keys with
      serverEncKey := by
        intro process' key' held
        by_cases isIt : process' = process
        · have isKey := inv.held process' key' held
          rw [stored] at isKey
          rw [isIt, ← isKey]
          exact Function.update_self ..
        · exact (Function.update_of_ne isIt _ _).trans held }
  refine meets_modify ⟨same, inv.used, ?_, ?_⟩ grown.acts fun _ => ⟨key, Function.update_self ..⟩
  · exact fun entry mem => rules.known_mono keys _ entry grown (inv.log entry mem)
  · exact fun name caller isCreator =>
      rules.creates_mono keys _ caller name grown (inv.created name caller isCreator)

/-- A draw changes nothing that the discipline speaks of. -/
theorem generateRandomBytes_meets (inv : OneStoredKey config rules keys)
    (byteLength : Nat) :
    Meets (keyDiscipline config rules) t performSecret (fun _ r => ∃ bytes, r = .ok bytes)
      (ServerKeyManager.generateRandomBytes byteLength) keys := by
  have grown : keys.Grows { keys with drawn := keys.drawn + 1 } :=
    { Keys.Grows.refl keys with }
  refine meets_get_bind inv (meets_modify_bind ?_ grown.acts ⟨_, rfl⟩)
  exact OneStoredKey.grow inv grown rfl rfl rfl fun _ _ isCreator => .inl isCreator

theorem fromBase64_meets (inv : OneStoredKey config rules keys) (text : String) :
    Meets (keyDiscipline config rules) t performSecret
      (fun _ r => ∀ bytes, r = .ok bytes → config.sodium.from_base64 text = .ok bytes)
      (fromBase64 config text) keys := by
  have lifted : Meets (keyDiscipline config rules) t performSecret
      (fun _ r => r = config.sodium.from_base64 text)
      (MonadExcept.ofExcept (config.sodium.from_base64 text)) keys := meets_ofExcept rfl
  refine meets_tryCatch inv lifted ?_ ?_
  · rintro keys' bytes _ _ isIt bytes' ⟨⟩
    exact isIt.symm
  · rintro keys' e _ _ _ bytes ⟨⟩

/-- **One process after another takes the same key**: it is found, or this process stored it. -/
theorem init_meets (remote : config.env.isLocal = false)
    (lawful : config.sodium.Lawful) (inv : OneStoredKey config rules keys) (caller : Caller) :
    Meets (keyDiscipline config rules) t performSecret (Initialized caller.process)
      (ServerKeyManager.initOrRetrieveServerEncKey config caller) keys := by
  refine meets_get_bind inv ?_
  split
  · next key held => exact fun _ => ⟨key, held⟩
  · refine meets_bind inv (get_meets remote inv _) ?_ (fun _ _ _ _ _ isOk => by cases isOk)
    intro keys₁ secret inv₁ _ found
    split
    · refine meets_bind inv₁ (generateRandomBytes_meets inv₁ _) ?_
        (fun _ _ _ _ _ isOk => by cases isOk)
      intro keys₂ serverEncKey inv₂ _ _
      refine meets_bind inv₂ (create_meets remote inv₂ (rules.creates_key _ _) _) ?_
        (fun _ _ _ _ _ isOk => by cases isOk)
      intro keys₃ _ inv₃ _ created
      obtain ⟨_, stored, _⟩ := created rfl
      refine setServerEncKey_meets inv₃ caller.process ?_
      refine Option.bind_eq_some_iff.mpr ⟨_, stored, ?_⟩
      simp only [keyOf, lawful.base64, Except.toOption]
    · next text =>
      refine meets_bind inv₁ (fromBase64_meets inv₁ text) ?_
        (fun _ _ _ _ _ isOk => by cases isOk)
      intro keys₂ serverEncKey inv₂ grown decoded
      refine setServerEncKey_meets inv₂ caller.process ?_
      refine Option.bind_eq_some_iff.mpr ⟨_, (grown.secrets _ _ found).1, ?_⟩
      simp only [keyOf, decoded serverEncKey rfl, Except.toOption]
    · refine setServerEncKey_meets inv₁ caller.process ?_
      exact Option.bind_eq_some_iff.mpr ⟨_, found, rfl⟩

/-! ## Encryption and the keyrings -/

/-- The key is there after it was initialized. -/
theorem readServerEncKey_meets (inv : OneStoredKey config rules keys) {process : Process}
    (holds : keys.Holds process) :
    Meets (keyDiscipline config rules) t performSecret
      (fun keys' r => ∃ key, r = .ok key ∧ storedKey config keys' = some key)
      (ServerKeyManager.readServerEncKey process) keys := by
  obtain ⟨key, held⟩ := holds
  refine meets_get_bind inv ?_
  simp only [held]
  exact ⟨key, rfl, inv.held process key held⟩

/-- A note of the stored key. -/
theorem secretbox_meets (inv : OneStoredKey config rules keys) {key : Bytes}
    (stored : storedKey config keys = some key) (payload nonce : Bytes) :
    Meets (keyDiscipline config rules) t performSecret
      (fun _ r => r = config.sodium.crypto_secretbox_easy payload nonce key)
      (ServerKeyManager.secretbox config payload nonce key) keys := by
  have grown : keys.Grows { keys with encryptedWith := keys.encryptedWith ++ [key] } :=
    { Keys.Grows.refl keys with }
  refine meets_modify_bind ⟨inv.held, ?_, ?_, ?_⟩ grown.acts (meets_ofExcept rfl)
  · intro key' mem
    rcases List.mem_append.mp mem with mem | mem
    · exact inv.used key' mem
    · rw [List.mem_singleton.mp mem]
      exact stored
  · exact fun entry mem => rules.known_mono keys _ entry grown (inv.log entry mem)
  · exact fun name caller isCreator =>
      rules.creates_mono keys _ caller name grown (inv.created name caller isCreator)

theorem nonceOrRandom_meets (inv : OneStoredKey config rules keys)
    (nonce : Option Bytes) :
    Meets (keyDiscipline config rules) t performSecret (fun _ r => ∃ bytes, r = .ok bytes)
      (ServerKeyManager.nonceOrRandom nonce) keys := by
  cases nonce with
  | some nonce => exact ⟨nonce, rfl⟩
  | none => exact generateRandomBytes_meets inv _

variable (config) in
/-- The payload opens with the stored key. -/
def Opens (keys : Keys Log) (encPayload : EncryptedPayload) (payload : Bytes) : Prop :=
  ∃ key box nonce, storedKey config keys = some key ∧
    config.sodium.from_base64 encPayload.payload = .ok box ∧
    config.sodium.from_base64 encPayload.nonce = .ok nonce ∧
    config.sodium.crypto_secretbox_open_easy box nonce key = .ok payload

theorem Opens.mono {keys' : Keys Log} {encPayload : EncryptedPayload} {payload : Bytes}
    (opens : Opens config keys encPayload payload) (grown : keys.Grows keys') :
    Opens config keys' encPayload payload := by
  obtain ⟨key, box, nonce, stored, opened⟩ := opens
  exact ⟨key, box, nonce, storedKey_mono config grown stored, opened⟩

theorem Opens.unique {encPayload : EncryptedPayload} {payload payload' : Bytes}
    (opens : Opens config keys encPayload payload)
    (opens' : Opens config keys encPayload payload') : payload = payload' := by
  obtain ⟨key, box, nonce, stored, isBox, isNonce, opened⟩ := opens
  obtain ⟨key', box', nonce', stored', isBox', isNonce', opened'⟩ := opens'
  rw [stored] at stored'
  rw [isBox] at isBox'
  rw [isNonce] at isNonce'
  cases stored'
  cases isBox'
  cases isNonce'
  rw [opened] at opened'
  cases opened'
  rfl

theorem encrypt_meets (remote : config.env.isLocal = false)
    (lawful : config.sodium.Lawful) (inv : OneStoredKey config rules keys) (caller : Caller)
    (payload : Bytes) (nonce : Option Bytes) :
    Meets (keyDiscipline config rules) t performSecret
      (fun keys' r => ∀ encPayload, r = .ok encPayload → Opens config keys' encPayload payload)
      (ServerKeyManager.encrypt config caller payload nonce) keys := by
  refine meets_bind inv (init_meets remote lawful inv caller) ?_
    (fun _ _ _ _ _ _ isOk => by cases isOk)
  intro keys₁ _ inv₁ _ initialized
  refine meets_bind inv₁ (nonceOrRandom_meets inv₁ nonce) ?_
    (fun _ _ _ _ _ _ isOk => by cases isOk)
  intro keys₂ thisNonce inv₂ grown₂ _
  refine meets_bind inv₂ (readServerEncKey_meets inv₂ ((initialized rfl).mono grown₂)) ?_
    (fun _ _ _ _ _ _ isOk => by cases isOk)
  rintro keys₃ key inv₃ _ ⟨_, ⟨⟩, stored⟩
  refine meets_bind inv₃ (secretbox_meets inv₃ stored payload thisNonce) ?_
    (fun _ _ _ _ _ _ isOk => by cases isOk)
  intro keys₄ encPayload inv₄ grown₄ boxed
  rintro _ ⟨⟩
  have opened := lawful.secretbox payload thisNonce key encPayload boxed.symm
  exact ⟨key, encPayload, thisNonce, storedKey_mono config grown₄ stored, lawful.base64 _,
    lawful.base64 _, opened⟩

theorem decrypt_meets (remote : config.env.isLocal = false)
    (lawful : config.sodium.Lawful) (inv : OneStoredKey config rules keys) (caller : Caller)
    (encPayload : EncryptedPayload) :
    Meets (keyDiscipline config rules) t performSecret
      (fun keys' r => ∀ payload, r = .ok payload → Opens config keys' encPayload payload)
      (ServerKeyManager.decrypt config caller encPayload) keys := by
  refine meets_bind inv (init_meets remote lawful inv caller) ?_
    (fun _ _ _ _ _ _ isOk => by cases isOk)
  intro keys₁ _ inv₁ _ initialized
  refine meets_bind inv₁ (fromBase64_meets inv₁ _) ?_ (fun _ _ _ _ _ _ isOk => by cases isOk)
  intro keys₂ box inv₂ grown₂ isBox
  refine meets_bind inv₂ (fromBase64_meets inv₂ _) ?_ (fun _ _ _ _ _ _ isOk => by cases isOk)
  intro keys₃ nonce inv₃ grown₃ isNonce
  have holds := ((initialized rfl).mono grown₂).mono grown₃
  refine meets_bind inv₃ (readServerEncKey_meets inv₃ holds) ?_
    (fun _ _ _ _ _ _ isOk => by cases isOk)
  rintro keys₄ key _ _ ⟨_, ⟨⟩, stored⟩
  refine meets_ofExcept fun payload opened => ?_
  exact ⟨key, box, nonce, stored, isBox box rfl, isNonce nonce rfl, opened⟩

variable (config) in
/-- **A stored keyring**: the secret of the name decrypts to it with the stored key. -/
def Readable (keys : Keys Log) (secretName : String) (keyring : Bytes) : Prop :=
  ∃ text storedKeyring, keys.secrets secretName = some (.string text) ∧
    config.sodium.parse text = .ok storedKeyring ∧
    Opens config keys storedKeyring.toEncryptedPayload keyring

theorem Readable.mono {keys' : Keys Log} {secretName : String} {keyring : Bytes}
    (readable : Readable config keys secretName keyring) (grown : keys.Grows keys') :
    Readable config keys' secretName keyring := by
  obtain ⟨text, storedKeyring, stored, parsed, opens⟩ := readable
  exact ⟨text, storedKeyring, (grown.secrets _ _ stored).1, parsed, opens.mono grown⟩

/-- A name is good for one keyring. -/
theorem Readable.unique {secretName : String} {keyring keyring' : Bytes}
    (readable : Readable config keys secretName keyring)
    (readable' : Readable config keys secretName keyring') : keyring = keyring' := by
  obtain ⟨text, storedKeyring, stored, parsed, opens⟩ := readable
  obtain ⟨text', storedKeyring', stored', parsed', opens'⟩ := readable'
  rw [stored] at stored'
  cases stored'
  rw [parsed] at parsed'
  cases parsed'
  exact opens.unique opens'

theorem Readable.present {secretName : String} {keyring : Bytes}
    (readable : Readable config keys secretName keyring) : keys.secrets secretName ≠ none := by
  obtain ⟨text, _, stored, _⟩ := readable
  rw [stored]
  exact Option.some_ne_none _

variable (config) in
/-- A keyring that was stored is readable, by a name that was absent and is this call's. -/
def StoreEnds (keys : Keys Log) (caller : Caller) (secretName : String) (keyring : Bytes)
    (keys' : Keys Log) (r : Except Thrown StoredKeyring) : Prop :=
  ∀ secret, r = .ok secret → keys.secrets secretName = none ∧
    Readable config keys' secretName keyring ∧ keys'.creator secretName = some caller

theorem storeKeyring_meets (remote : config.env.isLocal = false)
    (lawful : config.sodium.Lawful) (inv : OneStoredKey config rules keys) {caller : Caller}
    {id : String} (keyring : Bytes) {type : StoredKeyRingType}
    (creates : rules.Creates keys caller (ServerKeyManager.generateSecretName config id type)) :
    Meets (keyDiscipline config rules) t performSecret
      (StoreEnds config keys caller (ServerKeyManager.generateSecretName config id type) keyring)
      (ServerKeyManager.storeKeyring config caller id keyring type) keys := by
  refine meets_bind inv (init_meets remote lawful inv caller) ?_
    (fun _ _ _ _ _ _ isOk => by cases isOk)
  intro keys₁ _ inv₁ grown₁ _
  have body : Meets (keyDiscipline config rules) t performSecret
      (StoreEnds config keys caller (ServerKeyManager.generateSecretName config id type) keyring)
      (do
        let encPayload ← ServerKeyManager.encrypt config caller keyring none
        let secret : StoredKeyring := { encPayload with type := type }
        AWSSecretsService.create config.env caller
          (ServerKeyManager.generateSecretName config id type)
          (.string (config.sodium.stringify secret))
        pure secret) keys₁ := by
    refine meets_bind inv₁ (encrypt_meets remote lawful inv₁ caller keyring none) ?_
      (fun _ _ _ _ _ _ isOk => by cases isOk)
    intro keys₂ encPayload inv₂ grown₂ encrypted
    have creates₂ := rules.creates_mono _ _ _ _ (grown₁.trans grown₂) creates
    refine meets_bind inv₂ (create_meets remote inv₂ creates₂ _) ?_
      (fun _ _ _ _ _ _ isOk => by cases isOk)
    intro keys₃ _ inv₃ grown₃ created secret isOk
    obtain ⟨absent, stored, creator⟩ := created rfl
    have opens := (encrypted encPayload rfl).mono grown₃
    exact ⟨grown₁.absent (grown₂.absent absent), ⟨_, _, stored, lawful.json _, opens⟩, creator⟩
  refine meets_tryCatch inv₁ body (fun _ _ _ _ ends => ends) ?_
  rintro keys₂ e _ _ _ secret ⟨⟩

variable (config) in
/-- A keyring that is retrieved is the readable one, and a name that is not found was absent when the
call began. -/
def RetrieveEnds (keys : Keys Log) (secretName : String) (keys' : Keys Log) :
    Except Thrown (Option Bytes) → Prop
  | .ok (some keyring) => Readable config keys' secretName keyring
  | .ok none => keys.secrets secretName = none
  | .error _ => True

theorem retrieveKeyring_meets (remote : config.env.isLocal = false)
    (lawful : config.sodium.Lawful) (inv : OneStoredKey config rules keys) (caller : Caller)
    (id : String) (type : StoredKeyRingType) :
    Meets (keyDiscipline config rules) t performSecret
      (RetrieveEnds config keys (ServerKeyManager.generateSecretName config id type))
      (ServerKeyManager.retrieveKeyring config caller id type) keys := by
  refine meets_bind inv (init_meets remote lawful inv caller) ?_ (fun _ _ _ _ _ => trivial)
  intro keys₁ _ inv₁ grown₁ _
  refine meets_tryCatch inv₁ ?_ (fun _ _ _ _ ends => ends) (fun _ _ _ _ _ => trivial)
  refine meets_bind inv₁ (get_meets remote inv₁ _) ?_ (fun _ _ _ _ _ => trivial)
  intro keys₂ secret inv₂ _ found
  split
  · exact grown₁.absent found
  · trivial
  · next text =>
    have parses : Meets (keyDiscipline config rules) t performSecret
        (fun _ r => r = config.sodium.parse text)
        (MonadExcept.ofExcept (config.sodium.parse text)) keys₂ :=
      meets_ofExcept rfl
    refine meets_bind inv₂ parses ?_ (fun _ _ _ _ _ => trivial)
    intro keys₃ storedKeyring inv₃ grown₃ parsed
    refine meets_bind inv₃ (decrypt_meets remote lawful inv₃ caller _) ?_
      (fun _ _ _ _ _ => trivial)
    intro keys₄ keyring _ grown₄ opens
    have stored := (grown₄.secrets _ _ (grown₃.secrets _ _ found).1).1
    exact ⟨text, storedKeyring, stored, parsed.symm, opens keyring rfl⟩

/-! ## Calls in the log -/

/-- The entry is put at the end of the log. -/
def Keys.enter (entry : Log) (keys : Keys Log) : Keys Log :=
  { keys with log := keys.log ++ [entry] }

/-- A call begins: it is entered in the log, and its place there is its number. -/
def beginCall (process : Process) (entry : Log) : KeyM Log Caller := do
  let keys ← Async.get
  Async.modify (Keys.enter entry)
  pure ⟨process, keys.log.length⟩

/-- How a program ends. -/
def outcome {α : Type} (m : KeyM Log α) : KeyM Log (Except Thrown α) :=
  tryCatch (m >>= fun a => pure (.ok a)) fun e => pure (.error e)

/-- The program of a call runs, and how it ended is entered. -/
def answerCall {α : Type} (m : KeyM Log α) (entry : Except Thrown α → Log) : KeyM Log Unit := do
  let r ← outcome m
  Async.modify (Keys.enter (entry r))

theorem enter_grows (entry : Log) (keys : Keys Log) : keys.Grows (keys.enter entry) :=
  { Keys.Grows.refl keys with log := ⟨[entry], rfl⟩ }

/-- What the log holds at a place stays there. -/
theorem Keys.Grows.entry {keys' : Keys Log} (grown : keys.Grows keys') {n : Nat} {entry : Log}
    (there : keys.log[n]? = some entry) : keys'.log[n]? = some entry := by
  obtain ⟨more, isLog⟩ := grown.log
  rw [isLog]
  exact (List.getElem?_append_left (List.getElem?_eq_some_iff.mp there).1).trans there

/-- What is before a place of the log was there when the log reached it. -/
theorem Keys.Grows.before {keys' : Keys Log} (grown : keys.Grows keys') {n : Nat}
    (reached : n ≤ keys.log.length) {entry : Log} (mem : entry ∈ keys'.log.take n) :
    entry ∈ keys.log := by
  obtain ⟨more, isLog⟩ := grown.log
  rw [isLog, List.take_append_of_le_length reached] at mem
  exact List.mem_of_mem_take mem

theorem OneStoredKey.enter (inv : OneStoredKey config rules keys) {entry : Log}
    (known : rules.Known (keys.enter entry) entry) :
    OneStoredKey config rules (keys.enter entry) where
  held := inv.held
  used := inv.used
  log := by
    intro entry' mem
    rcases List.mem_append.mp mem with mem | mem
    · exact rules.known_mono keys _ entry' (enter_grows entry keys) (inv.log entry' mem)
    · rw [List.mem_singleton.mp mem]
      exact known
  created := fun name caller isCreator =>
    rules.creates_mono keys _ caller name (enter_grows entry keys)
      (inv.created name caller isCreator)

theorem beginCall_meets (inv : OneStoredKey config rules keys) (process : Process) {entry : Log}
    (known : rules.Known (keys.enter entry) entry) :
    Meets (keyDiscipline config rules) t performSecret
      (fun keys' r => ∃ n, r = .ok ⟨process, n⟩ ∧ keys'.log[n]? = some entry)
      (beginCall process entry) keys := by
  refine meets_get_bind inv (meets_modify_bind (inv.enter known) (enter_grows entry keys).acts ?_)
  exact ⟨keys.log.length, rfl, List.getElem?_concat_length ..⟩

theorem answerCall_meets {α : Type} (inv : OneStoredKey config rules keys)
    {Q : Keys Log → Except Thrown α → Prop} {m : KeyM Log α}
    (body : Meets (keyDiscipline config rules) t performSecret Q m keys)
    {entry : Except Thrown α → Log}
    (known : ∀ keys' r, keys.Grows keys' → Q keys' r → rules.Known keys' (entry r)) :
    Meets (keyDiscipline config rules) t performSecret (fun _ _ => True) (answerCall m entry)
      keys := by
  have ended : Meets (keyDiscipline config rules) t performSecret
      (fun keys' r => ∃ r', r = .ok r' ∧ Q keys' r') (outcome m) keys := by
    have first : Meets (keyDiscipline config rules) t performSecret
        (fun keys' r => match r with
          | .ok r' => Q keys' r'
          | .error e => Q keys' (.error e))
        (m >>= fun a => pure (Except.ok a)) keys :=
      meets_bind inv body (fun _ _ _ _ ends => ends) fun _ _ _ _ ends => ends
    exact meets_tryCatch inv first (fun _ _ _ _ ends => ⟨_, rfl, ends⟩)
      fun _ _ _ _ ends => ⟨_, rfl, ends⟩
  refine meets_bind inv ended ?_ fun _ _ _ _ _ => trivial
  rintro keys' r inv' grown ⟨_, ⟨⟩, ends⟩
  have known' := rules.known_mono _ _ _ (enter_grows (entry r) keys') (known keys' r grown ends)
  exact meets_modify (inv'.enter known') (enter_grows _ _).acts trivial

/-! ## Runs -/

/-- The processes and their secrets manager. -/
abbrev KeyState (Log : Type) :=
  AsyncState (Keys Log) SecretCommand SecretCommand.Answer Thrown

/-- The processes have just started, on what the secrets manager holds. -/
def KeyState.fresh (secrets : String → Option Secret) (random : Nat → Nat → Bytes) : KeyState Log :=
  .start { secrets, random }

/-- The machine of the processes: nothing but their calls changes the state. -/
def keyMachine {Call : Type} (program : Call → KeyM Log Unit) (m : KeyState Log)
    (move : Move Call SecretChoice Empty) : Option (KeyState Log) :=
  asyncStep (fun _ => program) performSecret (fun _ event => event.elim) m move

/-- Nothing is known before the processes start. -/
theorem safe_fresh (secrets : String → Option Secret) (random : Nat → Nat → Bytes) :
    Safe (keyDiscipline config rules) performSecret (KeyState.fresh secrets random) := by
  refine safe_start ?_ fun _ => trivial
  exact
    { held := fun _ _ held => by cases held
      used := fun _ mem => by cases mem
      log := fun _ mem => by cases mem
      created := fun _ _ isCreator => by cases isCreator }

/-- **Every run keeps the discipline**, and one secret at most is stored as the server encryption
key in all its states. -/
theorem one_stored_key_throughout {Call : Type} {program : Call → KeyM Log Unit}
    (meets : ∀ t call keys, OneStoredKey config rules keys →
      Meets (keyDiscipline config rules) t performSecret (fun _ _ => True) (program call) keys)
    (secrets : String → Option Secret) (random : Nat → Nat → Bytes)
    (moves : List (Move Call SecretChoice Empty)) :
    ∃ secret, Throughout (keyMachine program)
      (fun m => OneStoredKey config rules m.world ∧
        ∀ other, m.world.secrets (ServerKeyManager.getServerEncKeySecretName config.env) =
          some other → other = secret)
      (KeyState.fresh secrets random) moves := by
  have step : ∀ m move m', Safe (keyDiscipline config rules) performSecret m →
      keyMachine program m move = some m' →
      Safe (keyDiscipline config rules) performSecret m' ∧ m.world.Grows m'.world :=
    fun m move m' safe taken => safe_step (S := fun _ _ _ => True)
      (fun t call keys inv _ _ => meets t call keys inv) (fun _ event _ _ _ => event.elim) safe
      (fun _ _ _ => trivial) taken
  have found : ∃ secret, Throughout (keyMachine program)
      (fun m => Safe (keyDiscipline config rules) performSecret m ∧
        ∀ other, m.world.secrets (ServerKeyManager.getServerEncKeySecretName config.env) =
          some other → other = secret)
      (KeyState.fresh secrets random) moves :=
    throughout_found (Secret.string "")
      (fun m move m' safe taken => (step m move m' safe taken).1)
      (fun m move m' secret safe taken stored =>
        ((step m move m' safe taken).2.secrets _ secret stored).1)
      (safe_fresh secrets random)
  obtain ⟨secret, found⟩ := found
  exact ⟨secret, found.imp fun m inv => ⟨inv.1.inv, inv.2⟩⟩

end

end

end QuietStorage.Encryption
