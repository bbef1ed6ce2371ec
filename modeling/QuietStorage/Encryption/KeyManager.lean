import QuietStorage.Encryption.Secrets

/-!
# Encryption.KeyManager — the keys of the server

`ServerKeyManagerService`: the server encryption key, which a process takes from the secrets manager
or generates and stores there, and the keyrings, which are stored encrypted with it. `Sodium` stands
for the functions of libsodium and for the JSON text of a stored keyring.
-/

set_option autoImplicit false

namespace QuietStorage.Encryption

open Lib

inductive StoredKeyRingType where
  | SERVER_KEYRING | TEAM_KEYRING
  deriving DecidableEq, Repr

/-- The string of the enumeration. -/
def StoredKeyRingType.text : StoredKeyRingType → String
  | .SERVER_KEYRING => "139f"
  | .TEAM_KEYRING => "ab60"

structure EncryptedPayload where
  nonce : String
  payload : String
  deriving DecidableEq, Repr

structure StoredKeyring extends EncryptedPayload where
  type : StoredKeyRingType
  deriving DecidableEq, Repr

/-- What the service uses of libsodium, and the JSON text of a stored keyring. -/
structure Sodium where
  to_base64 : Bytes → String
  from_base64 : String → Except Thrown Bytes
  crypto_secretbox_easy : (payload nonce key : Bytes) → Except Thrown Bytes
  crypto_secretbox_open_easy : (payload nonce key : Bytes) → Except Thrown Bytes
  /-- The hash as base64. -/
  crypto_hash_sha512 : String → String
  /-- `JSON.stringify(secret)`. -/
  stringify : StoredKeyring → String
  /-- `JSON.parse(secret)`. -/
  parse : String → Except Thrown StoredKeyring

/-- base64, the secret box and JSON round-trip. -/
structure Sodium.Lawful (sodium : Sodium) : Prop where
  base64 : ∀ bytes, sodium.from_base64 (sodium.to_base64 bytes) = .ok bytes
  secretbox : ∀ payload nonce key encrypted,
    sodium.crypto_secretbox_easy payload nonce key = .ok encrypted →
      sodium.crypto_secretbox_open_easy encrypted nonce key = .ok payload
  json : ∀ keyring, sodium.parse (sodium.stringify keyring) = .ok keyring

/-- The characters of the nonce, each marked, and those of the payload. -/
def marked : List Char → List Char → List Char
  | [], payload => '.' :: payload
  | c :: nonce, payload => '+' :: c :: marked nonce payload

def unmarked : List Char → Option (List Char × List Char)
  | '.' :: payload => some ([], payload)
  | '+' :: c :: rest => (unmarked rest).map fun read => (c :: read.1, read.2)
  | _ => none

/-- A sodium that encodes only: its box hides nothing. -/
def plainSodium : Sodium where
  to_base64 := fun bytes => String.ofList (bytes.map fun byte => Char.ofNat byte.toNat)
  from_base64 := fun text => .ok (text.toList.map fun c => UInt8.ofNat c.toNat)
  crypto_secretbox_easy := fun payload _ _ => .ok payload
  crypto_secretbox_open_easy := fun box _ _ => .ok box
  crypto_hash_sha512 := id
  stringify := fun keyring =>
    let rest := marked keyring.nonce.toList keyring.payload.toList
    match keyring.type with
    | .SERVER_KEYRING => String.ofList ('s' :: rest)
    | .TEAM_KEYRING => String.ofList ('t' :: rest)
  parse := fun text =>
    let read type rest := match unmarked rest with
      | some (nonce, payload) => Except.ok
          { nonce := String.ofList nonce, payload := String.ofList payload, type := type }
      | none => .error (.error "Unexpected token in JSON")
    match text.toList with
    | 's' :: rest => read .SERVER_KEYRING rest
    | 't' :: rest => read .TEAM_KEYRING rest
    | _ => .error (.error "Unexpected token in JSON")

theorem unmarked_marked (nonce payload : List Char) :
    unmarked (marked nonce payload) = some (nonce, payload) := by
  induction nonce with
  | nil => rfl
  | cons c nonce ih => simp only [marked, unmarked, ih, Option.map_some]

theorem byte_of_char (byte : UInt8) : UInt8.ofNat (Char.ofNat byte.toNat).toNat = byte := by
  have small := byte.toNat_lt
  have valid : byte.toNat.isValidChar := .inl (by omega)
  have isChar : (Char.ofNat byte.toNat).toNat = byte.toNat := by
    unfold Char.ofNat
    rw [dif_pos valid]
    rfl
  rw [isChar]
  exact UInt8.ofNat_toNat

theorem plainSodium_lawful : plainSodium.Lawful where
  base64 := by
    intro bytes
    simp only [plainSodium, String.toList_ofList, List.map_map, Function.comp_def, byte_of_char,
      List.map_id']
  secretbox := by
    rintro payload nonce key encrypted ⟨⟩
    rfl
  json := by
    rintro ⟨⟨nonce, payload⟩, type⟩
    cases type with
    | SERVER_KEYRING =>
      simp only [plainSodium, String.toList_ofList, unmarked_marked, String.ofList_toList]
    | TEAM_KEYRING =>
      simp only [plainSodium, String.toList_ofList, unmarked_marked, String.ofList_toList]

/-- What the service was built with. -/
structure KeyConfig where
  env : Environment
  sodium : Sodium

def crypto_secretbox_KEYBYTES : Nat := 32
def crypto_secretbox_NONCEBYTES : Nat := 24

def Environment.short : Environment → String
  | .Development => "dev"
  | .Production => "prod"
  | .Local => "local"
  | .Test => "test"

section
variable {Log : Type} (config : KeyConfig)

/-- `SodiumHelper.fromBase64`. -/
def fromBase64 (base64Payload : String) : KeyM Log Bytes := do
  try MonadExcept.ofExcept (config.sodium.from_base64 base64Payload)
  catch e => throw (.compound "Payload isn't valid base64" e)

namespace ServerKeyManager

/-- `sodium.randombytes_buf`. -/
def generateRandomBytes (byteLength : Nat) : KeyM Log Bytes := do
  let keys ← Async.get
  Async.modify fun keys => { keys with drawn := keys.drawn + 1 }
  pure (keys.random keys.drawn byteLength)

/-- `sodium.crypto_secretbox_keygen`. -/
def generateEncryptionKey : KeyM Log Bytes := generateRandomBytes crypto_secretbox_KEYBYTES

def generateSecretName (id : String) (type : StoredKeyRingType) : String :=
  "qss/" ++ config.env.short ++ "-te-" ++ type.text ++ "-" ++
    config.sodium.crypto_hash_sha512 (id ++ "-" ++ type.text)

def getServerEncKeySecretName (env : Environment) : String :=
  match env with
  | .Development => "qss/dev-e-48da074e-4543-4fb8-9991-2c68227ba3de"
  | .Production => "qss/prod-e-8356e98e-8eae-4f3d-9b92-05d72dd98338"
  | .Local | .Test => "qss/local-e-697f6745-2e59-4016-be07-7a72ab021ae7"

/-- `this.serverEncKey = serverEncKey`. -/
def setServerEncKey (process : Process) (serverEncKey : Bytes) (keys : Keys Log) : Keys Log :=
  { keys with serverEncKey := Function.update keys.serverEncKey process (some serverEncKey) }

def initOrRetrieveServerEncKey (caller : Caller) : KeyM Log Unit := do
  let keys ← Async.get
  match keys.serverEncKey caller.process with
  | some _ => pure ()
  | none =>
    let secret ← AWSSecretsService.get config.env (getServerEncKeySecretName config.env)
    match secret with
    | none =>
      let serverEncKey ← generateEncryptionKey
      AWSSecretsService.create config.env caller (getServerEncKeySecretName config.env)
        (.string (config.sodium.to_base64 serverEncKey))
      Async.modify (setServerEncKey caller.process serverEncKey)
    | some (.string text) =>
      let serverEncKey ← fromBase64 config text
      Async.modify (setServerEncKey caller.process serverEncKey)
    | some (.binary serverEncKey) =>
      Async.modify (setServerEncKey caller.process serverEncKey)

/-- The `serverEncKey!` of a function that has initialized it; sodium throws if it is missing. -/
def readServerEncKey (process : Process) : KeyM Log Bytes := do
  let keys ← Async.get
  match keys.serverEncKey process with
  | some key => pure key
  | none => throw (.error "key cannot be null or undefined")

/-- `crypto_secretbox_easy` with a note of the key. -/
def secretbox (payload nonce key : Bytes) : KeyM Log Bytes := do
  Async.modify fun keys => { keys with encryptedWith := keys.encryptedWith ++ [key] }
  MonadExcept.ofExcept (config.sodium.crypto_secretbox_easy payload nonce key)

/-- `nonce ?? this.generateRandomBytes(..)`. -/
def nonceOrRandom : Option Bytes → KeyM Log Bytes
  | some nonce => pure nonce
  | none => generateRandomBytes crypto_secretbox_NONCEBYTES

def encrypt (caller : Caller) (payload : Bytes) (nonce : Option Bytes) :
    KeyM Log EncryptedPayload := do
  initOrRetrieveServerEncKey config caller
  let thisNonce ← nonceOrRandom nonce
  let key ← readServerEncKey caller.process
  let encPayload ← secretbox config payload thisNonce key
  pure
    { nonce := config.sodium.to_base64 thisNonce
      payload := config.sodium.to_base64 encPayload }

def decrypt (caller : Caller) (encPayload : EncryptedPayload) : KeyM Log Bytes := do
  initOrRetrieveServerEncKey config caller
  let payload ← fromBase64 config encPayload.payload
  let nonce ← fromBase64 config encPayload.nonce
  let key ← readServerEncKey caller.process
  MonadExcept.ofExcept (config.sodium.crypto_secretbox_open_easy payload nonce key)

def storeKeyring (caller : Caller) (id : String) (keyring : Bytes) (type : StoredKeyRingType) :
    KeyM Log StoredKeyring := do
  initOrRetrieveServerEncKey config caller
  try
    let encPayload ← encrypt config caller keyring none
    let secret : StoredKeyring := { encPayload with type := type }
    AWSSecretsService.create config.env caller (generateSecretName config id type)
      (.string (config.sodium.stringify secret))
    pure secret
  catch e => throw (.compound "Error while encrypting and storing keyring in AWS!" e)

def retrieveKeyring (caller : Caller) (id : String) (type : StoredKeyRingType) :
    KeyM Log (Option Bytes) := do
  initOrRetrieveServerEncKey config caller
  try
    let secret ← AWSSecretsService.get config.env (generateSecretName config id type)
    match secret with
    | none => pure none
    | some (.binary _) => throw (.error "Keyring secret wasn't stored as a string")
    | some (.string text) =>
      let storedKeyring ← MonadExcept.ofExcept (config.sodium.parse text)
      let keyring ← decrypt config caller storedKeyring.toEncryptedPayload
      pure (some keyring)
  catch e => throw (.compound "Error while retrieving and decrypting keyring from AWS!" e)

end ServerKeyManager

end

end QuietStorage.Encryption
