import QuietStorage.Encryption.KeyDiscipline

/-!
# Communities.ServerKeys — the keys of the server for a team

`getServerKeys` of the communities manager: it retrieves the stored keyset of a team, or makes one and
stores it, as the allowed key state permits. `serverKeysStep` runs any number of its calls in any
number of processes on one secrets manager.

`server_keys_issued_once`: the calls for one team that return a keyset return the same, at most one
call that requires new keys succeeds for it, and a call that requires stored keys creates none.
-/

set_option autoImplicit false

namespace QuietStorage.Communities

open Lib Encryption

inductive AllowedServerKeyState where
  | ANY | STORED_ONLY | NOT_STORED
  deriving DecidableEq, Repr

/-- The string of the enumeration. -/
def AllowedServerKeyState.text : AllowedServerKeyState → String
  | .ANY => "Any"
  | .STORED_ONLY => "StoredOnly"
  | .NOT_STORED => "NotStored"

/-- What `getServerKeys` is built on. `Keyset` is what `createKeyset` of the auth library makes of the
server's scope and a seed; it is stored as the bytes of its JSON text. -/
structure ServerKeysConfig (Keyset : Type) extends KeyConfig where
  hostname : String
  createKeyset : (name seed : String) → Keyset
  /-- `uint8arrays.fromString(JSON.stringify(keyset), 'utf8')`. -/
  stringifyKeyset : Keyset → Bytes
  /-- `JSON.parse(uint8arrays.toString(bytes, 'utf8'))`. -/
  parseKeyset : Bytes → Except Thrown Keyset

/-- The text of a keyset reads back. -/
def ServerKeysConfig.RoundTrips {Keyset : Type} (config : ServerKeysConfig Keyset) : Prop :=
  ∀ keyset, config.parseKeyset (config.stringifyKeyset keyset) = .ok keyset

section
variable {Keyset Log : Type} (config : ServerKeysConfig Keyset)

def getServerKeys (caller : Encryption.Caller) (teamId : TeamId)
    (allowedKeyState : AllowedServerKeyState) : KeyM Log Keyset := do
  let existingKeyset ←
    ServerKeyManager.retrieveKeyring config.toKeyConfig caller teamId .SERVER_KEYRING
  match existingKeyset with
  | some existingKeyset =>
    if allowedKeyState = .NOT_STORED then
      throw (.error ("Keys for this team were already stored but allowed state was set to " ++
        AllowedServerKeyState.NOT_STORED.text))
    else MonadExcept.ofExcept (config.parseKeyset existingKeyset)
  | none =>
    if allowedKeyState = .STORED_ONLY then
      throw (.error ("Keys for this team were not stored locally or in the secrets manager but " ++
        "the allowed state was set to " ++ AllowedServerKeyState.STORED_ONLY.text))
    else
      let seed ← ServerKeyManager.generateRandomBytes 32
      let serverKeysWithSecrets := config.createKeyset config.hostname (config.sodium.to_base64 seed)
      discard (ServerKeyManager.storeKeyring config.toKeyConfig caller teamId
        (config.stringifyKeyset serverKeysWithSecrets) .SERVER_KEYRING)
      pure serverKeysWithSecrets

/-- The name that a team's keyset is stored under. -/
def serverKeyringName (teamId : TeamId) : String :=
  ServerKeyManager.generateSecretName config.toKeyConfig teamId .SERVER_KEYRING

/-- The keyset is the stored one of the team. -/
def Issued (keys : Keys Log) (teamId : TeamId) (keyset : Keyset) : Prop :=
  ∃ bytes, Readable config.toKeyConfig keys (serverKeyringName config teamId) bytes ∧
    config.parseKeyset bytes = .ok keyset

variable {config}

theorem Issued.mono {keys keys' : Keys Log} {teamId : TeamId} {keyset : Keyset}
    (issued : Issued config keys teamId keyset) (grown : keys.Grows keys') :
    Issued config keys' teamId keyset := by
  obtain ⟨bytes, readable, parsed⟩ := issued
  exact ⟨bytes, readable.mono grown, parsed⟩

/-- One keyset is stored for a team. -/
theorem Issued.unique {keys : Keys Log} {teamId : TeamId} {keyset keyset' : Keyset}
    (issued : Issued config keys teamId keyset) (issued' : Issued config keys teamId keyset') :
    keyset = keyset' := by
  obtain ⟨bytes, readable, parsed⟩ := issued
  obtain ⟨bytes', readable', parsed'⟩ := issued'
  rw [readable.unique readable'] at parsed
  exact Except.ok.inj (parsed.symm.trans parsed')

/-- The creator of a stored keyset stays. -/
theorem Issued.creator {keys keys' : Keys Log} {teamId : TeamId} {keyset : Keyset}
    (issued : Issued config keys teamId keyset) (grown : keys.Grows keys') :
    keys'.creator (serverKeyringName config teamId) =
      keys.creator (serverKeyringName config teamId) := by
  obtain ⟨_, ⟨text, _, stored, _⟩, _⟩ := issued
  exact (grown.secrets _ _ stored).2

variable (config) in
/-- A keyset that is returned is the stored one of the team, and a call that required new keys has
stored it. -/
def ServerKeysEnd (caller : Encryption.Caller) (teamId : TeamId)
    (allowedKeyState : AllowedServerKeyState) (keys' : Keys Log) (r : Except Thrown Keyset) :
    Prop :=
  ∀ keyset, r = .ok keyset → Issued config keys' teamId keyset ∧
    (allowedKeyState = .NOT_STORED →
      keys'.creator (serverKeyringName config teamId) = some caller)

theorem getServerKeys_meets {rules : KeyRules config.toKeyConfig Log} {keys : Keys Log} {t : Nat}
    (remote : config.env.isLocal = false) (lawful : config.sodium.Lawful)
    (roundTrips : config.RoundTrips) (inv : OneStoredKey config.toKeyConfig rules keys)
    (caller : Encryption.Caller) (teamId : TeamId) (allowedKeyState : AllowedServerKeyState)
    (creates : allowedKeyState ≠ .STORED_ONLY →
      rules.Creates keys caller (serverKeyringName config teamId)) :
    Meets (keyDiscipline config.toKeyConfig rules) t performSecret
      (ServerKeysEnd config caller teamId allowedKeyState)
      (getServerKeys config caller teamId allowedKeyState) keys := by
  refine meets_bind inv (retrieveKeyring_meets remote lawful inv caller teamId .SERVER_KEYRING) ?_
    (fun _ _ _ _ _ _ isOk => by cases isOk)
  intro keys₁ existingKeyset inv₁ grown₁ retrieved
  cases existingKeyset with
  | some existingKeyset =>
    dsimp only
    split
    · rintro keyset ⟨⟩
    · next another =>
      refine meets_ofExcept fun keyset parsed => ?_
      exact ⟨⟨existingKeyset, retrieved, parsed⟩, fun required => absurd required another⟩
  | none =>
    dsimp only
    split
    · rintro keyset ⟨⟩
    · next another =>
      refine meets_bind inv₁ (generateRandomBytes_meets inv₁ _) ?_
        (fun _ _ _ _ _ _ isOk => by cases isOk)
      intro keys₂ seed inv₂ grown₂ _
      have creates₂ := rules.creates_mono _ _ _ _ (grown₁.trans grown₂) (creates another)
      have stores : Meets (keyDiscipline config.toKeyConfig rules) t performSecret
          (fun keys' r => r = .ok () → Readable config.toKeyConfig keys'
              (serverKeyringName config teamId) (config.stringifyKeyset
                (config.createKeyset config.hostname (config.sodium.to_base64 seed))) ∧
            keys'.creator (serverKeyringName config teamId) = some caller)
          (discard (ServerKeyManager.storeKeyring config.toKeyConfig caller teamId
            (config.stringifyKeyset
              (config.createKeyset config.hostname (config.sodium.to_base64 seed)))
            .SERVER_KEYRING)) keys₂ :=
        meets_bind inv₂ (storeKeyring_meets remote lawful inv₂ _ creates₂)
          (fun _ secret _ _ ends _ => (ends secret rfl).2) (fun _ _ _ _ _ isOk => by cases isOk)
      refine meets_bind inv₂ stores ?_ (fun _ _ _ _ _ _ isOk => by cases isOk)
      rintro keys₃ _ _ _ stored keyset ⟨⟩
      obtain ⟨readable, creator⟩ := stored rfl
      exact ⟨⟨_, readable, roundTrips _⟩, fun _ => creator⟩

end

/-! ## Runs -/

/-- An entry of the log: a call began, or the call that began at a place has ended. -/
inductive ServerKeysEntry (Keyset : Type) where
  | begun (teamId : TeamId) (allowedKeyState : AllowedServerKeyState)
  | ended (call : Nat) (teamId : TeamId) (allowedKeyState : AllowedServerKeyState)
      (result : Except Thrown Keyset)

/-- A call of `getServerKeys` in a process. -/
structure ServerKeysCall where
  process : Process
  teamId : TeamId
  allowedKeyState : AllowedServerKeyState

section
variable {Keyset : Type} (config : ServerKeysConfig Keyset)

def ServerKeysCall.program (call : ServerKeysCall) : KeyM (ServerKeysEntry Keyset) Unit := do
  let caller ← beginCall call.process (.begun call.teamId call.allowedKeyState)
  answerCall (getServerKeys config caller call.teamId call.allowedKeyState)
    (.ended caller.call call.teamId call.allowedKeyState)

/-- A step of a process or of the secrets manager. -/
def serverKeysStep (m : KeyState (ServerKeysEntry Keyset))
    (move : Move ServerKeysCall SecretChoice Empty) :
    Option (KeyState (ServerKeysEntry Keyset)) :=
  keyMachine (ServerKeysCall.program config) m move

/-- What is known of an answer: its call began where it says, a keyset is the stored one, and a call
that required new keys is the one that stored it. -/
def ServerKeysEntry.Known (keys : Keys (ServerKeysEntry Keyset)) : ServerKeysEntry Keyset → Prop
  | .begun _ _ => True
  | .ended call teamId allowedKeyState result =>
    keys.log[call]? = some (.begun teamId allowedKeyState) ∧
      ∃ process, ServerKeysEnd config ⟨process, call⟩ teamId allowedKeyState keys result

/-- A call that requires stored keys creates the server encryption key at most. -/
def MayCreate (keys : Keys (ServerKeysEntry Keyset)) (caller : Encryption.Caller)
    (name : String) : Prop :=
  name = ServerKeyManager.getServerEncKeySecretName config.env ∨
    ∃ teamId allowedKeyState, keys.log[caller.call]? = some (.begun teamId allowedKeyState) ∧
      allowedKeyState ≠ .STORED_ONLY

theorem ServerKeysEnd.mono {config : ServerKeysConfig Keyset} {Log : Type} {keys keys' : Keys Log}
    {caller : Encryption.Caller} {teamId : TeamId} {allowedKeyState : AllowedServerKeyState}
    {r : Except Thrown Keyset} (ends : ServerKeysEnd config caller teamId allowedKeyState keys r)
    (grown : keys.Grows keys') : ServerKeysEnd config caller teamId allowedKeyState keys' r := by
  intro keyset isOk
  obtain ⟨issued, creator⟩ := ends keyset isOk
  exact ⟨issued.mono grown, fun required => (issued.creator grown).trans (creator required)⟩

def serverKeysRules : KeyRules config.toKeyConfig (ServerKeysEntry Keyset) where
  Known := fun keys entry => entry.Known config keys
  Creates := MayCreate config
  known_mono := by
    intro keys keys' entry grown known
    cases entry with
    | begun teamId allowedKeyState => trivial
    | ended call teamId allowedKeyState result =>
      obtain ⟨began, process, ends⟩ := known
      exact ⟨grown.entry began, process, ends.mono grown⟩
  creates_mono := by
    rintro keys keys' caller name grown (isKey | ⟨teamId, allowedKeyState, began, another⟩)
    · exact .inl isKey
    · exact .inr ⟨teamId, allowedKeyState, grown.entry began, another⟩
  creates_key := fun _ _ => .inl rfl

variable {config}

/-- Every call keeps the discipline. -/
theorem serverKeysCall_meets (remote : config.env.isLocal = false)
    (lawful : config.sodium.Lawful) (roundTrips : config.RoundTrips) (call : ServerKeysCall)
    {keys : Keys (ServerKeysEntry Keyset)} {t : Nat}
    (inv : OneStoredKey config.toKeyConfig (serverKeysRules config) keys) :
    Meets (keyDiscipline config.toKeyConfig (serverKeysRules config)) t performSecret
      (fun _ _ => True) (call.program config) keys := by
  refine meets_bind inv (beginCall_meets inv call.process trivial) ?_ (fun _ _ _ _ _ => trivial)
  rintro keys₁ _ inv₁ _ ⟨n, ⟨⟩, began⟩
  have mayCreate : call.allowedKeyState ≠ .STORED_ONLY →
      MayCreate config keys₁ ⟨call.process, n⟩ (serverKeyringName config call.teamId) :=
    fun another => .inr ⟨call.teamId, call.allowedKeyState, began, another⟩
  refine answerCall_meets inv₁ (getServerKeys_meets remote lawful roundTrips inv₁
    ⟨call.process, n⟩ call.teamId call.allowedKeyState mayCreate) ?_
  exact fun keys₂ r grown ends => ⟨grown.entry began, call.process, ends⟩

/-- A keyring is not stored under the name of the server encryption key. -/
theorem generateSecretName_ne (config : KeyConfig) (id : String) (type : StoredKeyRingType) :
    ServerKeyManager.generateSecretName config id type ≠
      ServerKeyManager.getServerEncKeySecretName config.env := by
  intro same
  have chars := congrArg String.toList same
  cases isEnv : config.env <;>
    simp [ServerKeyManager.generateSecretName, ServerKeyManager.getServerEncKeySecretName,
      Environment.short, isEnv] at chars

/-- **What the secrets manager guarantees of the keysets**, in a state of the machine. -/
structure ServerKeysIssued (config : ServerKeysConfig Keyset)
    (keys : Keys (ServerKeysEntry Keyset)) : Prop where
  /-- An answer belongs to the call that began at its place. -/
  began : ∀ call teamId allowedKeyState result,
    .ended call teamId allowedKeyState result ∈ keys.log →
      keys.log[call]? = some (.begun teamId allowedKeyState)
  /-- The calls for one team that return a keyset return the same. -/
  same : ∀ call call' teamId allowedKeyState allowedKeyState' keyset keyset',
    .ended call teamId allowedKeyState (.ok keyset) ∈ keys.log →
    .ended call' teamId allowedKeyState' (.ok keyset') ∈ keys.log → keyset = keyset'
  /-- At most one call that requires new keys succeeds for a team. -/
  once : ∀ call call' teamId keyset keyset',
    .ended call teamId .NOT_STORED (.ok keyset) ∈ keys.log →
    .ended call' teamId .NOT_STORED (.ok keyset') ∈ keys.log → call = call'
  /-- A call that requires stored keys creates no keyring of any team. -/
  storedOnly : ∀ call teamId, keys.log[call]? = some (.begun teamId .STORED_ONLY) →
    ∀ process id type, keys.creator (ServerKeyManager.generateSecretName config.toKeyConfig id type) ≠
      some ⟨process, call⟩

theorem serverKeysIssued_of_inv {keys : Keys (ServerKeysEntry Keyset)}
    (inv : OneStoredKey config.toKeyConfig (serverKeysRules config) keys) :
    ServerKeysIssued config keys where
  began := fun call teamId allowedKeyState result mem => (inv.log _ mem).1
  same := by
    intro call call' teamId allowedKeyState allowedKeyState' keyset keyset' mem mem'
    obtain ⟨_, _, ends⟩ := inv.log _ mem
    obtain ⟨_, _, ends'⟩ := inv.log _ mem'
    exact (ends keyset rfl).1.unique (ends' keyset' rfl).1
  once := by
    intro call call' teamId keyset keyset' mem mem'
    obtain ⟨_, process, ends⟩ := inv.log _ mem
    obtain ⟨_, process', ends'⟩ := inv.log _ mem'
    have creator := (ends keyset rfl).2 rfl
    rw [(ends' keyset' rfl).2 rfl] at creator
    cases creator
    rfl
  storedOnly := by
    intro call teamId began process id type isCreator
    rcases inv.created _ _ isCreator with isKey | ⟨teamId', allowedKeyState, began', another⟩
    · exact generateSecretName_ne config.toKeyConfig id type isKey
    · rw [began] at began'
      cases began'
      exact another rfl

/-- **Server keys are issued once per team**: in every run of any number of processes, on any
secrets. -/
theorem server_keys_issued_once (config : ServerKeysConfig Keyset)
    (remote : config.env.isLocal = false) (lawful : config.sodium.Lawful)
    (roundTrips : config.RoundTrips) (secrets : String → Option Secret)
    (random : Nat → Nat → Bytes) (moves : List (Move ServerKeysCall SecretChoice Empty)) :
    Throughout (serverKeysStep config) (fun m => ServerKeysIssued config m.world)
      (KeyState.fresh secrets random) moves := by
  obtain ⟨_, found⟩ := one_stored_key_throughout
    (fun _ call keys inv => serverKeysCall_meets remote lawful roundTrips call inv) secrets random
    moves
  exact Throughout.imp (fun m inv => serverKeysIssued_of_inv inv.1) found

/-- A config for `plainSodium`, whose keysets are their seeds. -/
def plainServerKeys : ServerKeysConfig Bytes where
  env := .Production
  sodium := plainSodium
  hostname := "qss"
  createKeyset := fun _ seed => seed.toList.map fun c => UInt8.ofNat c.toNat
  stringifyKeyset := id
  parseKeyset := .ok

/-- A process asks for new keys of a team, which are made and stored; another, whose call overlaps, asks
for stored ones. -/
def issuedToBoth : List (Move ServerKeysCall SecretChoice Empty) :=
  [.start 0 ⟨0, "team", .NOT_STORED⟩,
    .perform 0 (.fails (.aws { name := some "ResourceNotFoundException" })), .resume 0,
    .perform 0 .succeeds, .resume 0, .start 1 ⟨1, "team", .STORED_ONLY⟩,
    .perform 0 (.fails (.aws { name := some "ResourceNotFoundException" })), .resume 0,
    .perform 1 .succeeds, .resume 1, .perform 0 .succeeds, .resume 0, .perform 1 .succeeds, .resume 1]

/-- Both get the keyset of the first. -/
theorem server_keys_issued_once_both :
    let keys : KeyState (ServerKeysEntry Bytes) :=
      KeyState.fresh (fun _ => none) fun _ byteLength => List.replicate byteLength 0
    ((run (serverKeysStep plainServerKeys) keys issuedToBoth).map fun m => m.world.log) =
        some [.begun "team" .NOT_STORED, .begun "team" .STORED_ONLY,
          .ended 0 "team" .NOT_STORED (.ok (List.replicate 32 0)),
          .ended 1 "team" .STORED_ONLY (.ok (List.replicate 32 0))] ∧
      Throughout (serverKeysStep plainServerKeys) (fun m => ServerKeysIssued plainServerKeys m.world)
        keys issuedToBoth :=
  ⟨rfl, server_keys_issued_once plainServerKeys rfl plainSodium_lawful (fun _ => rfl) _ _ _⟩

end

end QuietStorage.Communities
