import QuietStorage.Communities.Manager
import QuietStorage.Communities.ServerKeys
import QuietStorage.Encryption.Alone

/-!
# Communities.Create — what a failed create leaves behind

`create` of the communities manager as one program over the three stores that it writes in turn: the
secrets manager, the `communities` table and the communities in memory. It runs alone here, every
step of it may fail, and a step that fails has no effect of its own.

The state of the manager and `startAuthSyncConnection` are those of `Communities.Manager`, the
programs that read and write secrets those of `Encryption.KeyManager` and `Communities.ServerKeys`.
-/

set_option autoImplicit false

namespace QuietStorage.Communities

open Lib Encryption

/-- `Community` as the client sends it, with the chain in hex. -/
structure Community where
  teamId : TeamId
  sigChain : String
  deriving DecidableEq, Repr

/-- What `create` returns; the keys of the server are redacted. -/
structure CreatedCommunity (Keyset : Type) where
  community : Community
  serverKeys : Keyset

/-- What `create` is built on, beyond the server keys: how it decodes its arguments, and the auth
library. -/
structure CreateConfig (Keyset Keyring : Type) extends ServerKeysConfig Keyset where
  /-- `uint8arrays.fromString(teamKeyring, 'base64')`. -/
  keyringBytes : String → Except Thrown Bytes
  /-- `JSON.parse(uint8arrays.toString(bytes, 'utf8'))`. -/
  parseKeyring : Bytes → Except Thrown Keyring
  /-- `uint8arrays.fromString(sigChain, 'hex')`. -/
  sigChainBytes : String → Except Thrown Bytes
  /-- `SigChain.create`. -/
  loadTeam : Bytes → Keyset → Keyring → Except Thrown Team
  members : Team → List UserId
  redactKeys : Keyset → Except Thrown Keyset

/-- The stores of one process, and what LFA does when the connection of the creator starts. -/
structure Server where
  keys : Keys Unit
  manager : State Bytes
  starts : Except Thrown State.Env

inductive CreateCommand where
  | secret (command : SecretCommand)
  /-- The insert of a row into the `communities` table. -/
  | insert (teamId : TeamId) (sigChain : Bytes)

abbrev CreateCommand.Answer : CreateCommand → Type
  | .secret command => command.Answer
  | .insert _ _ => Unit

abbrev CreateM := Async Server CreateCommand CreateCommand.Answer Thrown

/-- A program of the key services. -/
def withSecrets {α : Type} : KeyM Unit α → CreateM α
  | .pure a => .pure a
  | .throw e => .throw e
  | .sync f k =>
    .sync (fun s => { s with keys := f s.keys }) fun s => withSecrets (k s.keys)
  | .await c k => .await (.secret c) fun r => withSecrets (k r)

/-- How a command may be answered. An insert fails if the table has the team, and may always fail. -/
def performCreate (s : Server) :
    (c : CreateCommand) → SecretChoice → Option (Server × Except Thrown c.Answer)
  | .secret command, choice =>
    (performKept s.keys command choice).map fun next => ({ s with keys := next.1 }, next.2)
  | .insert teamId sigChain, choice =>
    match choice, s.manager.stored teamId with
    | .succeeds, none =>
      some ({ s with manager := { s.manager with
        stored := Function.update s.manager.stored teamId (some sigChain) } }, .ok ())
    | .fails e, _ => some (s, .error e)
    | _, _ => none

section
variable {Keyset Keyring : Type} (config : CreateConfig Keyset Keyring)

/-- `addCommunity` of the storage service. -/
def CreateM.addCommunity (community : Community) : CreateM Bool := do
  try
    let sigChain ← MonadExcept.ofExcept (config.sigChainBytes community.sigChain)
    Async.send (CreateCommand.insert community.teamId sigChain)
    pure true
  catch _ => pure false

/-- `startAuthSyncConnection`; what LFA throws when the connection is made or started is thrown. -/
def CreateM.startAuthSyncConnection (userId : UserId) (teamId : TeamId) (socketId : SocketId) :
    CreateM Unit := do
  let s ← Async.get
  match s.manager.communities.get? teamId with
  | none => throw (.error s!"No community found for this community ID: {teamId}")
  | some _ =>
    let env ← MonadExcept.ofExcept s.starts
    Async.modify fun s => { s with
      manager := (s.manager.startAuthSyncConnection userId teamId socketId env).getD s.manager }

/-- The body of the `try` of `create`. -/
def CreateM.createCommunity (caller : Encryption.Caller) (userId : UserId) (community : Community)
    (teamKeyring : String) (socketId : SocketId) : CreateM (CreatedCommunity Keyset) := do
  let serializedTeamKeyring ← MonadExcept.ofExcept (config.keyringBytes teamKeyring)
  let deserializedTeamKeyring ←
    MonadExcept.ofExcept (config.parseKeyring serializedTeamKeyring)
  let serverKeysWithSecrets ←
    withSecrets (getServerKeys config.toServerKeysConfig caller community.teamId .STORED_ONLY)
  let rawSigchain ← MonadExcept.ofExcept (config.sigChainBytes community.sigChain)
  let team ← MonadExcept.ofExcept
    (config.loadTeam rawSigchain serverKeysWithSecrets deserializedTeamKeyring)
  let userCount := (config.members team).length
  if 1 < userCount then
    throw (.error (s!"QSS can't join community with more than 1 user!  Community with team ID " ++
      s!"{community.teamId} has {userCount} users!"))
  else
    let _ ← withSecrets (ServerKeyManager.storeKeyring config.toKeyConfig caller community.teamId
      serializedTeamKeyring .TEAM_KEYRING)
    let stored ← CreateM.addCommunity config community
    if stored then
      Async.modify fun s => { s with manager := s.manager.putCreated community.teamId team }
      CreateM.startAuthSyncConnection userId community.teamId socketId
      let serverKeys ← MonadExcept.ofExcept (config.redactKeys serverKeysWithSecrets)
      pure { community := community, serverKeys := serverKeys }
    else throw (.error "Failed to store community!")

def CreateM.create (caller : Encryption.Caller) (userId : UserId) (community : Community)
    (teamKeyring : String) (socketId : SocketId) : CreateM (CreatedCommunity Keyset) := do
  try CreateM.createCommunity config caller userId community teamKeyring socketId
  catch e => throw (.compound "Error while creating community" e)

end

/-! ## The programs on the secrets -/

theorem ends_withSecrets {α : Type} {m : KeyM Unit α} {s s' : Server} {r : Except Thrown α} :
    Ends performCreate (withSecrets m) s s' r ↔
      ∃ keys, Ends performKept m s.keys keys r ∧ s' = { s with keys := keys } := by
  induction m generalizing s with
  | pure a =>
    constructor
    · rintro ⟨rfl, rfl⟩
      exact ⟨s'.keys, ⟨rfl, rfl⟩, rfl⟩
    · rintro ⟨_, ⟨rfl, rfl⟩, rfl⟩
      exact ⟨rfl, rfl⟩
  | throw e =>
    constructor
    · rintro ⟨rfl, rfl⟩
      exact ⟨s'.keys, ⟨rfl, rfl⟩, rfl⟩
    · rintro ⟨_, ⟨rfl, rfl⟩, rfl⟩
      exact ⟨rfl, rfl⟩
  | sync f k ih => exact ih s.keys
  | await c k ih =>
    constructor
    · rintro ⟨choice, s₁, answer, performed, ended⟩
      obtain ⟨⟨keys₁, answer⟩, kept, isNext⟩ := Option.map_eq_some_iff.mp performed
      cases isNext
      obtain ⟨keys, alone, rfl⟩ := (ih answer).mp ended
      exact ⟨keys, ⟨choice, keys₁, answer, kept, alone⟩, rfl⟩
    · rintro ⟨keys, ⟨choice, keys₁, answer, performed, ended⟩, rfl⟩
      exact ⟨choice, { s with keys := keys₁ }, answer,
        Option.map_eq_some_iff.mpr ⟨_, performed, rfl⟩, (ih answer).mpr ⟨keys, ended, rfl⟩⟩

section
variable {Keyset : Type} {Log : Type} {config : ServerKeysConfig Keyset} {keys keys' : Keys Log}
  {caller : Encryption.Caller} {teamId : TeamId}

variable (config) in
/-- The keyset of the team that the key unlocks. -/
def KeysetThere (keys : Keys Log) (key : Bytes) (teamId : TeamId) (keyset : Keyset) : Prop :=
  ∃ text bytes, keys.secrets (serverKeyringName config teamId) = some (.string text) ∧
    unlocked config.toKeyConfig key text = .ok bytes ∧ config.parseKeyset bytes = .ok keyset

/-- With a server encryption key there, `create` reads the team's keyset with it or throws; no secret
changes. -/
theorem getServerKeys_ends (remote : config.env.isLocal = false)
    (there : KeyThere config.toKeyConfig keys caller.process) {r : Except Thrown Keyset}
    (ended : Ends performKept (getServerKeys config caller teamId .STORED_ONLY) keys keys' r) :
    ((∃ e, r = .error e) ∧ keys'.secrets = keys.secrets) ∨
      ∃ key keyset, processKey config.toKeyConfig keys caller.process = some key ∧
        keys' = ServerKeyManager.setServerEncKey caller.process key keys ∧ r = .ok keyset ∧
        KeysetThere config keys key teamId keyset := by
  rcases ends_bind.mp ended with ⟨keys₁, existing, retrieved, rest⟩ | ⟨e, retrieved, rfl⟩
  · rcases retrieveKeyring_ends remote there retrieved with ⟨⟨e, isError⟩, _⟩ | ⟨key, isKey, rfl, read⟩
    · cases isError
    · cases existing with
      | none =>
        obtain ⟨rfl, rfl⟩ := rest
        exact .inl ⟨⟨_, rfl⟩, rfl⟩
      | some bytes =>
        obtain ⟨text, stored, unlocks⟩ := read bytes rfl
        obtain ⟨rfl, rfl⟩ := (endsIn_ofExcept _ _).mp rest
        cases parsed : config.parseKeyset bytes with
        | ok keyset => exact .inr ⟨key, keyset, isKey, rfl, rfl, text, bytes, stored, unlocks, parsed⟩
        | error e => exact .inl ⟨⟨e, rfl⟩, rfl⟩
  · rcases retrieveKeyring_ends remote there retrieved with ⟨_, same⟩ | ⟨key, _, rfl, _⟩
    · exact .inl ⟨⟨e, rfl⟩, same⟩
    · exact .inl ⟨⟨e, rfl⟩, rfl⟩

theorem getServerKeys_reads (remote : config.env.isLocal = false) {key : Bytes}
    (isKey : processKey config.toKeyConfig keys caller.process = some key) {keyset : Keyset}
    (there : KeysetThere config keys key teamId keyset) :
    Ends performKept (getServerKeys config caller teamId .STORED_ONLY) keys
      (ServerKeyManager.setServerEncKey caller.process key keys) (.ok keyset) := by
  obtain ⟨text, bytes, stored, unlocks, parsed⟩ := there
  have reads := retrieveKeyring_reads remote isKey stored unlocks
  refine ends_bind.mpr (.inl ⟨_, some bytes, reads, ?_⟩)
  exact (endsIn_ofExcept _ _).mpr ⟨rfl, parsed.symm⟩

/-- Without a server encryption key, `create` can store a new one and then throw. -/
theorem getServerKeys_makes (remote : config.env.isLocal = false)
    (missing : ¬KeyThere config.toKeyConfig keys caller.process) :
    ∃ keys' e, Ends performKept (getServerKeys config caller teamId .STORED_ONLY : KeyM Log _) keys
        keys' (.error e) ∧ keys'.secrets ≠ keys.secrets := by
  obtain ⟨keys₁, made, stored⟩ := init_makes remote missing
  have fails := get_fails remote keys₁ (serverKeyringName config teamId)
  have retrieves : Ends performKept (ServerKeyManager.retrieveKeyring config.toKeyConfig caller teamId
      .SERVER_KEYRING) keys keys₁
      (.error (.compound "Error while retrieving and decrypting keyring from AWS!" accessDenied)) :=
    ends_bind.mpr (.inl ⟨keys₁, (), made, ends_tryCatch.mpr (.inr
      ⟨keys₁, accessDenied, ends_bind.mpr (.inr ⟨_, fails, rfl⟩), rfl, rfl⟩)⟩)
  refine ⟨keys₁, _, ends_bind.mpr (.inr ⟨_, retrieves, rfl⟩), fun same => ?_⟩
  rw [same] at stored
  exact missing (.inr stored)

end

/-! ## What a failed create leaves behind -/

/-- The three stores are as they were. -/
structure LeftAsItWas (s s' : Server) : Prop where
  secrets : s'.keys.secrets = s.keys.secrets
  stored : s'.manager.stored = s.manager.stored
  communities : s'.manager.communities = s.manager.communities

theorem LeftAsItWas.refl (s : Server) : LeftAsItWas s s := ⟨rfl, rfl, rfl⟩

section
variable {Keyset Keyring : Type} (config : CreateConfig Keyset Keyring)

/-- The keyring that the client sends can be decoded. -/
def Decodes (teamKeyring : String) : Prop :=
  ∃ bytes keyring, config.keyringBytes teamKeyring = .ok bytes ∧
    config.parseKeyring bytes = .ok keyring

/-- **The call can store its keyring**: every check before it passes, and the name is absent. -/
structure CanStore (s : Server) (process : Process) (community : Community) (teamKeyring : String)
    (bytes : Bytes) (keyring : Keyring) (key : Bytes) (keyset : Keyset) (sigChain : Bytes)
    (team : Team) (box : Bytes) : Prop where
  isBytes : config.keyringBytes teamKeyring = .ok bytes
  isKeyring : config.parseKeyring bytes = .ok keyring
  isKey : processKey config.toKeyConfig s.keys process = some key
  isKeyset : KeysetThere config.toServerKeysConfig s.keys key community.teamId keyset
  isSigChain : config.sigChainBytes community.sigChain = .ok sigChain
  isTeam : config.loadTeam sigChain keyset keyring = .ok team
  unpopulated : (config.members team).length ≤ 1
  isBox : boxed config.toKeyConfig s.keys key bytes = .ok box
  absent : s.keys.secrets (ServerKeyManager.generateSecretName config.toKeyConfig community.teamId
    .TEAM_KEYRING) = none

/-- The call has nothing to leave: its keyring does not decode, or the server encryption key is there
and one of the checks before the keyring is stored refuses the call. -/
def NothingToLeave (s : Server) (process : Process) (community : Community)
    (teamKeyring : String) : Prop :=
  ¬Decodes config teamKeyring ∨ (KeyThere config.toKeyConfig s.keys process ∧
    ¬∃ bytes keyring key keyset sigChain team box, CanStore config s process community teamKeyring
      bytes keyring key keyset sigChain team box)

variable {config} {s s' : Server} {caller : Encryption.Caller} {userId : UserId}
  {community : Community} {teamKeyring : String} {socketId : SocketId}

/-- A call that has nothing to leave throws, and the stores are as they were. -/
theorem createCommunity_ends (remote : config.env.isLocal = false)
    (nothing : NothingToLeave config s caller.process community teamKeyring)
    {r : Except Thrown (CreatedCommunity Keyset)}
    (ended : Ends performCreate
      (CreateM.createCommunity config caller userId community teamKeyring socketId) s s' r) :
    (∃ e, r = .error e) ∧ LeftAsItWas s s' := by
  unfold CreateM.createCommunity at ended
  rcases ends_ofExcept_bind.mp ended with ⟨e, _, rfl, rfl⟩ | ⟨bytes, isBytes, ended⟩
  · exact ⟨⟨e, rfl⟩, .refl _⟩
  rcases ends_ofExcept_bind.mp ended with ⟨e, _, rfl, rfl⟩ | ⟨keyring, isKeyring, ended⟩
  · exact ⟨⟨e, rfl⟩, .refl _⟩
  obtain ⟨there, cannot⟩ :=
    nothing.resolve_left (not_not.mpr ⟨bytes, keyring, isBytes, isKeyring⟩)
  rcases ends_bind.mp ended with ⟨s₁, serverKeys, got, ended⟩ | ⟨e, got, rfl⟩
  · obtain ⟨keys, read, rfl⟩ := ends_withSecrets.mp got
    rcases getServerKeys_ends remote there read with
      ⟨⟨e, isError⟩, _⟩ | ⟨key, keyset, isKey, rfl, isOk, isKeyset⟩
    · cases isError
    cases isOk
    rcases ends_ofExcept_bind.mp ended with ⟨e, _, rfl, rfl⟩ | ⟨sigChain, isSigChain, ended⟩
    · exact ⟨⟨e, rfl⟩, rfl, rfl, rfl⟩
    rcases ends_ofExcept_bind.mp ended with ⟨e, _, rfl, rfl⟩ | ⟨team, isTeam, ended⟩
    · exact ⟨⟨e, rfl⟩, rfl, rfl, rfl⟩
    dsimp only at ended
    split at ended
    · obtain ⟨rfl, rfl⟩ := ended
      exact ⟨⟨_, rfl⟩, rfl, rfl, rfl⟩
    · next unpopulated =>
      have holds := setServerEncKey_holds caller.process key s.keys
      have refuses : ∀ box, ¬boxed config.toKeyConfig s.keys key bytes = .ok box ∨
          s.keys.secrets (ServerKeyManager.generateSecretName config.toKeyConfig community.teamId
            .TEAM_KEYRING) ≠ none := by
        intro box
        by_contra both
        obtain ⟨isBox, absent⟩ := not_or.mp both
        exact cannot ⟨bytes, keyring, key, serverKeys, sigChain, team, box, isBytes, isKeyring,
          isKey, isKeyset, isSigChain, isTeam, Nat.le_of_not_lt unpopulated, not_not.mp isBox,
          not_not.mp absent⟩
      rcases ends_bind.mp ended with ⟨s₂, _, stored, _⟩ | ⟨e, stored, rfl⟩
      · obtain ⟨keys, kept, rfl⟩ := ends_withSecrets.mp stored
        rcases storeKeyring_ends remote holds kept with ⟨absent, box, isBox⟩ | ⟨⟨e, isError⟩, _⟩
        · rcases refuses box with unboxed | present
          · exact absurd isBox unboxed
          · exact absurd absent present
        · cases isError
      · obtain ⟨keys, kept, rfl⟩ := ends_withSecrets.mp stored
        rcases storeKeyring_ends remote holds kept with ⟨absent, box, isBox⟩ | ⟨_, same⟩
        · rcases refuses box with unboxed | present
          · exact absurd isBox unboxed
          · exact absurd absent present
        · exact ⟨⟨e, rfl⟩, same, rfl, rfl⟩
  · obtain ⟨keys, read, rfl⟩ := ends_withSecrets.mp got
    rcases getServerKeys_ends remote there read with ⟨_, same⟩ | ⟨_, _, _, _, isOk, _⟩
    · exact ⟨⟨e, rfl⟩, same, rfl, rfl⟩
    · cases isOk

/-- `addCommunity` can fail, and says so. -/
theorem addCommunity_fails (config : CreateConfig Keyset Keyring) (s : Server)
    (community : Community) :
    Ends performCreate (CreateM.addCommunity config community) s s (.ok false) := by
  cases isSigChain : config.sigChainBytes community.sigChain with
  | error e =>
    exact ends_tryCatch.mpr (.inr ⟨s, e, ends_ofExcept_bind.mpr (.inl ⟨e, isSigChain, rfl, rfl⟩), rfl,
      rfl⟩)
  | ok sigChain =>
    refine ends_tryCatch.mpr (.inr ⟨s, .error "connection terminated", ?_, rfl, rfl⟩)
    refine ends_ofExcept_bind.mpr (.inr ⟨sigChain, isSigChain, ends_bind.mpr (.inr ⟨_, ?_, rfl⟩)⟩)
    exact ends_send.mpr ⟨.fails _, rfl⟩

/-- A call that can store its keyring can throw after it: the insert fails. -/
theorem createCommunity_leaves (remote : config.env.isLocal = false)
    (caller : Encryption.Caller) {bytes : Bytes}
    {keyring : Keyring} {key : Bytes} {keyset : Keyset} {sigChain : Bytes} {team : Team}
    {box : Bytes} (can : CanStore config s caller.process community teamKeyring bytes keyring key
      keyset sigChain team box) (userId : UserId) (socketId : SocketId) :
    ∃ s' e, Ends performCreate
        (CreateM.createCommunity config caller userId community teamKeyring socketId) s s'
        (.error e) ∧
      s'.keys.secrets (ServerKeyManager.generateSecretName config.toKeyConfig community.teamId
        .TEAM_KEYRING) ≠ none ∧ KeyThere config.toKeyConfig s'.keys caller.process := by
  have holds := setServerEncKey_holds caller.process key s.keys
  have isBox : boxed config.toKeyConfig
      (ServerKeyManager.setServerEncKey caller.process key s.keys) key bytes = .ok box := can.isBox
  have absent : (ServerKeyManager.setServerEncKey caller.process key s.keys).secrets
      (ServerKeyManager.generateSecretName config.toKeyConfig community.teamId .TEAM_KEYRING) =
      none := can.absent
  obtain ⟨keys, secret, stores, stored, same⟩ := storeKeyring_stores remote holds absent isBox
  have there : KeyThere config.toKeyConfig keys caller.process := by
    refine .inl ?_
    rw [same, holds]
    exact Option.some_ne_none key
  refine ⟨{ s with keys := keys }, .error "Failed to store community!", ?_, stored, there⟩
  have reads := getServerKeys_reads remote can.isKey can.isKeyset
  refine ends_ofExcept_bind.mpr (.inr ⟨bytes, can.isBytes, ?_⟩)
  refine ends_ofExcept_bind.mpr (.inr ⟨keyring, can.isKeyring, ?_⟩)
  refine ends_bind.mpr (.inl ⟨_, keyset, ends_withSecrets.mpr ⟨_, reads, rfl⟩, ?_⟩)
  refine ends_ofExcept_bind.mpr (.inr ⟨sigChain, can.isSigChain, ?_⟩)
  refine ends_ofExcept_bind.mpr (.inr ⟨team, can.isTeam, ?_⟩)
  dsimp only
  rw [if_neg (Nat.not_lt_of_le can.unpopulated)]
  refine ends_bind.mpr (.inl ⟨_, secret, ends_withSecrets.mpr ⟨keys, stores, rfl⟩, ?_⟩)
  refine ends_bind.mpr (.inl ⟨_, false, addCommunity_fails config _ community, ?_⟩)
  exact ⟨rfl, rfl⟩

/-- What `create` throws is what the body of its `try` throws, wrapped. -/
theorem create_throws {e : Thrown} :
    Ends performCreate (CreateM.create config caller userId community teamKeyring socketId) s s'
        (.error e) ↔
      ∃ e', Ends performCreate
          (CreateM.createCommunity config caller userId community teamKeyring socketId) s s'
          (.error e') ∧
        e = .compound "Error while creating community" e' := by
  unfold CreateM.create
  rw [ends_tryCatch]
  constructor
  · rintro (⟨a, _, isOk⟩ | ⟨s₁, e', thrown, rfl, isError⟩)
    · cases isOk
    · cases isError
      exact ⟨e', thrown, rfl⟩
  · rintro ⟨e', thrown, rfl⟩
    exact .inr ⟨s', e', thrown, rfl, rfl⟩

/-- **When a failed create leaves nothing behind**: whatever step of the call fails, the secret store,
the table and the communities in memory are as they were, exactly if the call has nothing to leave,
that is, if it is refused before its keyring is stored and makes no server encryption key. -/
theorem failed_create_iff (config : CreateConfig Keyset Keyring)
    (remote : config.env.isLocal = false) (s : Server) (caller : Encryption.Caller)
    (userId : UserId) (community : Community) (teamKeyring : String) (socketId : SocketId) :
    (∀ s' e, Ends performCreate
        (CreateM.create config caller userId community teamKeyring socketId) s s' (.error e) →
          LeftAsItWas s s') ↔
      NothingToLeave config s caller.process community teamKeyring := by
  constructor
  · intro leaves
    by_contra something
    obtain ⟨decodes, reaches⟩ := not_or.mp something
    rw [not_not] at decodes
    by_cases there : KeyThere config.toKeyConfig s.keys caller.process
    · have canStore := not_and.mp reaches there
      rw [not_not] at canStore
      obtain ⟨bytes, keyring, key, keyset, sigChain, team, box, can⟩ := canStore
      obtain ⟨s', e, thrown, stored, _⟩ := createCommunity_leaves remote caller can userId socketId
      rw [(leaves s' _ (create_throws.mpr ⟨e, thrown, rfl⟩)).secrets] at stored
      exact stored can.absent
    · obtain ⟨bytes, keyring, isBytes, isKeyring⟩ := decodes
      obtain ⟨keys, e, makes, changed⟩ := getServerKeys_makes remote there
      have thrown : Ends performCreate
          (CreateM.createCommunity config caller userId community teamKeyring socketId) s
          { s with keys := keys } (.error e) := by
        refine ends_ofExcept_bind.mpr (.inr ⟨bytes, isBytes, ?_⟩)
        refine ends_ofExcept_bind.mpr (.inr ⟨keyring, isKeyring, ?_⟩)
        exact ends_bind.mpr (.inr ⟨e, ends_withSecrets.mpr ⟨keys, makes, rfl⟩, rfl⟩)
      exact changed (leaves _ _ (create_throws.mpr ⟨e, thrown, rfl⟩)).secrets
  · intro nothing s' e ended
    obtain ⟨e', thrown, _⟩ := create_throws.mp ended
    exact (createCommunity_ends remote nothing thrown).2

/-- **A keyring that was left behind blocks its team**: every later create throws. -/
theorem create_blocked (remote : config.env.isLocal = false) (caller : Encryption.Caller)
    (there : KeyThere config.toKeyConfig s.keys caller.process)
    (left : s.keys.secrets (ServerKeyManager.generateSecretName config.toKeyConfig
      community.teamId .TEAM_KEYRING) ≠ none) {r : Except Thrown (CreatedCommunity Keyset)}
    (ended : Ends performCreate
      (CreateM.create config caller userId community teamKeyring socketId) s s' r) : ∃ e, r = .error e := by
  have nothing : NothingToLeave config s caller.process community teamKeyring := by
    refine .inr ⟨there, ?_⟩
    rintro ⟨bytes, keyring, key, keyset, sigChain, team, box, can⟩
    exact left can.absent
  rcases ends_tryCatch.mp ended with ⟨a, created, rfl⟩ | ⟨s₁, e, _, _, rfl⟩
  · obtain ⟨⟨e, isError⟩, _⟩ := createCommunity_ends remote nothing created
    cases isError
  · exact ⟨_, rfl⟩

/-- A config for `plainSodium`: every chain loads as a team of one member, and keysets are redacted
to themselves. -/
def plainCreate : CreateConfig Bytes Bytes where
  toServerKeysConfig := plainServerKeys
  keyringBytes := fun text => .ok (text.toList.map fun c => UInt8.ofNat c.toNat)
  parseKeyring := .ok
  sigChainBytes := fun text => .ok (text.toList.map fun c => UInt8.ofNat c.toNat)
  loadTeam := fun _ _ _ => .ok { id := "team", links := ∅ }
  members := fun _ => ["owner"]
  redactKeys := .ok

/-- A server that has stored its encryption key and the keyset of one team. -/
def plainServer : Server where
  keys :=
    { secrets := fun name =>
        if name = ServerKeyManager.getServerEncKeySecretName .Production then some (.string "key")
        else if name = serverKeyringName plainServerKeys "team" then some (.string "s.keyset")
        else none
      random := fun _ byteLength => List.replicate byteLength 0 }
  manager := .start fun _ => none
  starts := .ok { closes := false, dies := false, now := 0 }

theorem plainServer_canStore : ∃ bytes keyring key keyset sigChain team box,
    CanStore plainCreate plainServer 0 ⟨"team", "chain"⟩ "keyring" bytes keyring key keyset sigChain
      team box :=
  ⟨_, _, _, _, _, _, _,
    { isBytes := rfl
      isKeyring := rfl
      isKey := rfl
      isKeyset := ⟨"s.keyset", _, by decide, rfl, rfl⟩
      isSigChain := rfl
      isTeam := rfl
      unpopulated := by decide
      isBox := rfl
      absent := by decide }⟩

theorem failed_create_iff_plain :
    (∀ s' e, Ends performCreate
        (CreateM.create plainCreate ⟨0, 0⟩ "owner" ⟨"team", "chain"⟩ "keyring" "socket") plainServer s'
        (.error e) → LeftAsItWas plainServer s') ↔
      NothingToLeave plainCreate plainServer 0 ⟨"team", "chain"⟩ "keyring" :=
  failed_create_iff plainCreate rfl plainServer ⟨0, 0⟩ "owner" ⟨"team", "chain"⟩ "keyring" "socket"

/-- The insert fails after the team keyring was stored: the keyring stays behind, and from then on no
create of the team can succeed. -/
theorem failed_create_leaves_keyring :
    ∃ s' e, Ends performCreate
        (CreateM.create plainCreate ⟨0, 0⟩ "owner" ⟨"team", "chain"⟩ "keyring" "socket") plainServer s'
        (.error e) ∧ ¬LeftAsItWas plainServer s' ∧
      ∀ s'' r, Ends performCreate
        (CreateM.create plainCreate ⟨0, 1⟩ "owner" ⟨"team", "chain"⟩ "keyring" "socket") s' s'' r →
          ∃ e', r = .error e' := by
  obtain ⟨bytes, keyring, key, keyset, sigChain, team, box, can⟩ := plainServer_canStore
  have remote : plainCreate.env.isLocal = false := rfl
  obtain ⟨s', e, thrown, stored, there⟩ :=
    createCommunity_leaves remote ⟨0, 0⟩ can "owner" "socket"
  refine ⟨s', _, create_throws.mpr ⟨e, thrown, rfl⟩, fun same => ?_, fun s'' r again => ?_⟩
  · rw [same.secrets] at stored
    exact stored can.absent
  · exact create_blocked remote ⟨0, 1⟩ there stored again

end

end QuietStorage.Communities
