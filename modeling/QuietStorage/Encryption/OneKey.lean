import QuietStorage.Encryption.KeyDiscipline

/-!
# Encryption.OneKey — one server encryption key, and keyrings stay readable

`keyStep`: any number of processes call `encrypt`, `decrypt`, `storeKeyring` and `retrieveKeyring`,
with any interleaving at their awaits, on one secrets manager. The log has an entry where a call of
`storeKeyring` or `retrieveKeyring` begins and one where it answers.

`one_server_encryption_key`: in every run one secret at most is stored as the server encryption key,
every encryption uses its key, and a keyring that was stored is what a later retrieval returns.
-/

set_option autoImplicit false

namespace QuietStorage.Encryption

open Lib

/-- An entry of the log. A number is the place where the call began. -/
inductive KeyAnswer where
  | begun
  | stored (id : String) (keyring : Bytes) (type : StoredKeyRingType)
      (result : Except Thrown StoredKeyring)
  | retrieved (call : Nat) (id : String) (type : StoredKeyRingType)
      (result : Except Thrown (Option Bytes))

/-- A call of the service in a process. -/
inductive KeyCall where
  | encrypt (process : Process) (payload : Bytes) (nonce : Option Bytes)
  | decrypt (process : Process) (encPayload : EncryptedPayload)
  | storeKeyring (process : Process) (id : String) (keyring : Bytes) (type : StoredKeyRingType)
  | retrieveKeyring (process : Process) (id : String) (type : StoredKeyRingType)

section
variable (config : KeyConfig)

/-- The function that is called, and the log. -/
def KeyCall.program : KeyCall → KeyM KeyAnswer Unit
  | .encrypt process payload nonce => do
    let caller ← beginCall process .begun
    discard (ServerKeyManager.encrypt config caller payload nonce)
  | .decrypt process encPayload => do
    let caller ← beginCall process .begun
    discard (ServerKeyManager.decrypt config caller encPayload)
  | .storeKeyring process id keyring type => do
    let caller ← beginCall process .begun
    answerCall (ServerKeyManager.storeKeyring config caller id keyring type)
      (.stored id keyring type)
  | .retrieveKeyring process id type => do
    let caller ← beginCall process .begun
    answerCall (ServerKeyManager.retrieveKeyring config caller id type)
      (.retrieved caller.call id type)

/-- A step of a process or of the secrets manager. -/
def keyStep (m : KeyState KeyAnswer) (move : Move KeyCall SecretChoice Empty) :
    Option (KeyState KeyAnswer) :=
  keyMachine (KeyCall.program config) m move

/-- The retrieval found what the calls that had answered before it had stored. -/
def ReadsBack (before : List KeyAnswer) (id : String) (type : StoredKeyRingType)
    (result : Except Thrown (Option Bytes)) : Prop :=
  ∀ keyring secret, .stored id keyring type (.ok secret) ∈ before →
    (∃ e, result = .error e) ∨ result = .ok (some keyring)

/-- What is known of an entry: a keyring that was stored is readable, and one that is retrieved is
what was stored before. -/
def KeyAnswer.Known (keys : Keys KeyAnswer) : KeyAnswer → Prop
  | .begun => True
  | .stored id keyring type (.ok _) =>
    Readable config keys (ServerKeyManager.generateSecretName config id type) keyring
  | .stored _ _ _ (.error _) => True
  | .retrieved call id type result =>
    call < keys.log.length ∧ ReadsBack (keys.log.take call) id type result

theorem KeyAnswer.Known.mono {config : KeyConfig} {keys keys' : Keys KeyAnswer} {entry : KeyAnswer}
    (grown : keys.Grows keys') (known : entry.Known config keys) : entry.Known config keys' := by
  cases entry with
  | begun => trivial
  | stored id keyring type result =>
    cases result with
    | ok secret => exact Readable.mono known grown
    | error e => trivial
  | retrieved call id type result =>
    obtain ⟨reached, readsBack⟩ := known
    obtain ⟨more, isLog⟩ := grown.log
    refine ⟨?_, ?_⟩
    · rw [isLog, List.length_append]
      omega
    · rw [isLog, List.take_append_of_le_length (Nat.le_of_lt reached)]
      exact readsBack

/-- The rules of these calls: any of them may create any secret. -/
def keyRules : KeyRules config KeyAnswer where
  Known := fun keys entry => entry.Known config keys
  Creates := fun _ _ _ => True
  known_mono := fun _ _ _ grown known => known.mono grown
  creates_mono := fun _ _ _ _ _ _ => trivial
  creates_key := fun _ _ => trivial

variable {config}

/-- A retrieval that began when the log reached `call` reads back what had been stored. -/
theorem readsBack_of_ends {keys keys' : Keys KeyAnswer} {call : Nat} {id : String}
    {type : StoredKeyRingType} (inv : OneStoredKey config (keyRules config) keys)
    (reached : keys.log[call]? = some .begun) (grown : keys.Grows keys')
    {result : Except Thrown (Option Bytes)}
    (ends : RetrieveEnds config keys (ServerKeyManager.generateSecretName config id type) keys'
      result) :
    (KeyAnswer.retrieved call id type result).Known config keys' := by
  refine ⟨(List.getElem?_eq_some_iff.mp (grown.entry reached)).1, fun keyring secret mem => ?_⟩
  have within := (List.getElem?_eq_some_iff.mp reached).1
  have readable : Readable config keys (ServerKeyManager.generateSecretName config id type)
      keyring := inv.log _ (grown.before (Nat.le_of_lt within) mem)
  cases result with
  | error e => exact .inl ⟨e, rfl⟩
  | ok found =>
    cases found with
    | none => exact absurd ends readable.present
    | some keyring' =>
      rw [(readable.mono grown).unique ends]
      exact .inr rfl

/-- Every call keeps the discipline. -/
theorem keyCall_meets (remote : config.env.isLocal = false) (lawful : config.sodium.Lawful)
    {keys : Keys KeyAnswer} {t : Nat} (inv : OneStoredKey config (keyRules config) keys)
    (call : KeyCall) :
    Meets (keyDiscipline config (keyRules config)) t performSecret (fun _ _ => True)
      (call.program config) keys := by
  cases call with
  | encrypt process payload nonce =>
    refine meets_bind inv (beginCall_meets inv process trivial) ?_ (fun _ _ _ _ _ => trivial)
    intro keys₁ caller inv₁ _ _
    exact meets_bind inv₁ (encrypt_meets remote lawful inv₁ caller payload nonce)
      (fun _ _ _ _ _ => trivial) (fun _ _ _ _ _ => trivial)
  | decrypt process encPayload =>
    refine meets_bind inv (beginCall_meets inv process trivial) ?_ (fun _ _ _ _ _ => trivial)
    intro keys₁ caller inv₁ _ _
    exact meets_bind inv₁ (decrypt_meets remote lawful inv₁ caller encPayload)
      (fun _ _ _ _ _ => trivial) (fun _ _ _ _ _ => trivial)
  | storeKeyring process id keyring type =>
    refine meets_bind inv (beginCall_meets inv process trivial) ?_ (fun _ _ _ _ _ => trivial)
    intro keys₁ caller inv₁ _ _
    refine answerCall_meets inv₁ (storeKeyring_meets remote lawful inv₁ keyring trivial) ?_
    intro keys₂ r _ ends
    cases r with
    | ok secret => exact (ends secret rfl).2.1
    | error e => trivial
  | retrieveKeyring process id type =>
    refine meets_bind inv (beginCall_meets inv process trivial) ?_ (fun _ _ _ _ _ => trivial)
    rintro keys₁ _ inv₁ _ ⟨call, ⟨⟩, reached⟩
    refine answerCall_meets inv₁ (retrieveKeyring_meets remote lawful inv₁ ⟨process, call⟩ id type)
      ?_
    exact fun keys₂ r grown ends => readsBack_of_ends inv₁ reached grown ends

/-! ## Runs -/

/-- One secret is stored as the server encryption key, and what was used to encrypt is its key. -/
structure OneServerEncKey (config : KeyConfig) (secret : Secret) {Log : Type} (keys : Keys Log) :
    Prop where
  stored : ∀ other, keys.secrets (ServerKeyManager.getServerEncKeySecretName config.env) =
    some other → other = secret
  used : ∀ key ∈ keys.encryptedWith, keyOf config secret = some key

/-- Every retrieval read back what had been stored before it began. -/
def KeyringsReadable (log : List KeyAnswer) : Prop :=
  ∀ call id type result, .retrieved call id type result ∈ log →
    ReadsBack (log.take call) id type result

theorem OneStoredKey.oneServerEncKey {Log : Type} {rules : KeyRules config Log} {keys : Keys Log}
    (inv : OneStoredKey config rules keys) {secret : Secret}
    (stored : ∀ other, keys.secrets (ServerKeyManager.getServerEncKeySecretName config.env) =
      some other → other = secret) : OneServerEncKey config secret keys where
  stored := stored
  used := by
    intro key mem
    obtain ⟨other, found, isKey⟩ := Option.bind_eq_some_iff.mp (inv.used key mem)
    rw [← stored other found]
    exact isKey

/-- **One server encryption key, and keyrings always readable.** In every run of any number of
processes, on any secrets: there is one secret such that in every state no other is stored as the
server encryption key and only its key was used to encrypt; and a retrieval that began after a
keyring was stored failed or returned that keyring. -/
theorem one_server_encryption_key (config : KeyConfig) (remote : config.env.isLocal = false)
    (lawful : config.sodium.Lawful) (secrets : String → Option Secret)
    (random : Nat → Nat → Bytes) (moves : List (Move KeyCall SecretChoice Empty)) :
    ∃ secret, Throughout (keyStep config)
      (fun m => OneServerEncKey config secret m.world ∧ KeyringsReadable m.world.log)
      (KeyState.fresh secrets random) moves := by
  obtain ⟨secret, found⟩ := one_stored_key_throughout
    (fun _ call keys inv => keyCall_meets remote lawful inv call) secrets random moves
  refine ⟨secret, Throughout.imp ?_ found⟩
  rintro m ⟨inv, stored⟩
  exact ⟨inv.oneServerEncKey stored, fun call id type result mem => (inv.log _ mem).2⟩

/-- A process stores a keyring, once a throttled `get` was tried again and the server encryption key was
made; another process retrieves it. -/
def storedAndRetrieved : List (Move KeyCall SecretChoice Empty) :=
  [.start 0 (.storeKeyring 0 "team" [7] .TEAM_KEYRING),
    .perform 0 (.fails (.aws { name := some "ThrottlingException" })), .resume 0,
    .perform 0 .succeeds, .resume 0,
    .perform 0 (.fails (.aws { name := some "ResourceNotFoundException" })), .resume 0,
    .perform 0 .succeeds, .resume 0, .perform 0 .succeeds, .resume 0,
    .start 1 (.retrieveKeyring 1 "team" .TEAM_KEYRING), .perform 1 .succeeds, .resume 1,
    .perform 1 .succeeds, .resume 1]

/-- Both calls are answered, the second with what the first has stored. -/
theorem one_server_encryption_key_readBack :
    let keys : KeyState KeyAnswer :=
      KeyState.fresh (fun _ => none) fun _ byteLength => List.replicate byteLength 0
    ((run (keyStep ⟨.Production, plainSodium⟩) keys storedAndRetrieved).map fun m => m.world.log) =
        some [.begun,
          .stored "team" [7] .TEAM_KEYRING (.ok
            { nonce := String.ofList (List.replicate 24 '\x00')
              payload := "\x07"
              type := .TEAM_KEYRING }),
          .begun, .retrieved 2 "team" .TEAM_KEYRING (.ok (some [7]))] ∧
      ∃ secret, Throughout (keyStep ⟨.Production, plainSodium⟩)
        (fun m => OneServerEncKey ⟨.Production, plainSodium⟩ secret m.world ∧
          KeyringsReadable m.world.log) keys storedAndRetrieved :=
  ⟨rfl, one_server_encryption_key ⟨.Production, plainSodium⟩ rfl plainSodium_lawful _ _ _⟩

end

end QuietStorage.Encryption
