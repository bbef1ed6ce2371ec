import QuietStorage.Encryption.Secrets
import QuietStorage.Lib.Interpret
import QuietStorage.Lib.JsValue
import QuietStorage.Lib.Utf8

/-!
# Encryption.EnvSecrets — secrets in the place of environment variables

`AWSSecretsService.getSecretEnvVar` with its cache, and `create`, which writes the cache too, as
programs over `AWSSecretsService.get` and `create` of `Encryption.Secrets`. Two tests of the string
`ENV` decide where a secret is looked for: `ConfigService.getEnv` says which environment it is, and the
prefix of the name is chosen by a comparison of its own (`envScopedSecretName`).

**The machine** is that of `Lib.Async`. Calls overlap at every `await`, that of an asynchronous function
which has returned included (`EnvCommand.turn`); the clock does not go back; and others may change the
secrets manager at any moment.

**The record.** No program reads it. Answers and ends of creations are numbered (`moment`); a call
holds the number of its answer while it is under way, a cache entry is stamped with it, and what was
asked, returned and created is kept with its numbers.
-/

set_option autoImplicit false

namespace QuietStorage.Encryption

open Lib

/-! ## Configuration -/

/-- `process.env`, and `JSON.parse`, which throws (`none`) or returns a value. -/
structure EnvConfig where
  processEnv : String → Option String
  parseJson : String → Option JsValue

namespace EnvConfig

variable (config : EnvConfig)

/-- `ConfigService.getString(key)`. -/
def getString (key : String) : Option String :=
  match config.processEnv key with
  | none => none
  | some rawValue => if rawValue = "" then none else some rawValue

/-- `ConfigService.getEnv()`. -/
def getEnv : Except Thrown Environment :=
  match config.getString "ENV" with
  | none => .error (.error "ENV is not set!")
  | some value =>
    let lower := value.toLower
    if lower = "dev" ∨ lower = "development" then .ok .Development
    else if lower = "prod" ∨ lower = "production" then .ok .Production
    else if lower = "test" ∨ lower = "testing" then .ok .Test
    else if lower = "local" then .ok .Local
    else .error (.error s!"Invalid ENV value {value}")

/-- The environment that the service was constructed in; the constructor throws where there is none. -/
def env : Environment :=
  match config.getEnv with
  | .ok env => env
  | .error _ => .Local

/-- The name with the prefix of the environment. -/
def envScopedSecretName (secretName : String) : String :=
  (if (config.getString "ENV").map String.toLower = some "development" then "DEV" else "PROD") ++ "_" ++
    secretName

/-- `parsed.secret`, if `parsed` is an object with such a string. -/
def secretPayload : JsValue → Option String
  | .object fields =>
    match fields.lookup "secret" with
    | some (.string secret) => some secret
    | _ => none
  | _ => none

/-- The text of a secret: a string of JSON, the field `secret` of an object of JSON, or all of it if
it is no JSON. -/
def parseSecretString (secret : Secret) : Option String :=
  let rawSecret := match secret with
    | .string text => text
    | .binary bytes => String.ofList (Utf8.decode bytes)
  match config.parseJson rawSecret with
  | none => some rawSecret
  | some (.string parsed) => some parsed
  | some parsed => secretPayload parsed

end EnvConfig

/-! ## The world -/

/-- A call of the service. -/
inductive EnvCall where
  | read (secretName : String) (useEnvScopedName : Bool)
  | create (secretName : String) (secret : Secret)
  deriving DecidableEq, Repr

/-- The name that a call asks the secrets manager for, and caches under. -/
def EnvCall.key (config : EnvConfig) : EnvCall → String
  | .read secretName useEnvScopedName =>
    if useEnvScopedName then config.envScopedSecretName secretName else secretName
  | .create secretName _ => secretName

structure CachedSecretEnvVar where
  value : String
  expiresAt : Nat

/-- The number of the answer that a call under way has. -/
structure Held where
  key : String
  answeredAt : Nat

/-- When a cache entry was made, and the number of the answer that it was made of. -/
structure Stamp where
  cachedAt : Nat
  answeredAt : Nat

/-- A question to the secrets manager. -/
structure Asked where
  call : EnvCall
  secretId : String
  deriving DecidableEq, Repr

/-- A call of `getSecretEnvVar` that has returned. -/
structure Returned where
  secretName : String
  useEnvScopedName : Bool
  key : String
  value : Option String
  /-- The clock. -/
  time : Nat
  /-- The moment that the call began. -/
  began : Nat
  /-- The number of the answer that the value comes of. -/
  answeredAt : Nat
  /-- When the value was cached, if it comes from the cache. -/
  cachedAt : Option Nat
  deriving DecidableEq, Repr

/-- A call of `create` that has succeeded. -/
structure Created where
  secretName : String
  /-- The number of the answer of the secrets manager. -/
  effect : Nat
  ended : Nat
  deriving DecidableEq, Repr

structure EnvWorld where
  keys : Keys Unit
  /-- `Date.now()`. -/
  now : Nat := 0
  secretEnvVarCache : String → Option CachedSecretEnvVar := fun _ => none
  /-- The states that the secrets manager was in before. -/
  past : List (Keys Unit) := []
  moment : Nat := 0
  held : Nat → Option Held := fun _ => none
  stamps : String → Option Stamp := fun _ => none
  asked : List Asked := []
  returned : List Returned := []
  /-- The creations whose answer has come through: the name, and the number of the answer. -/
  settled : List (String × Nat) := []
  created : List Created := []

inductive EnvCommand where
  | aws (t : Nat) (call : EnvCall) (command : SecretCommand)
  /-- `await` of an asynchronous function that has returned. -/
  | turn (t : Nat) (call : EnvCall)

abbrev EnvCommand.Answer : EnvCommand → Type
  | .aws _ _ command => command.Answer
  | .turn _ _ => Unit

abbrev EnvM := Async EnvWorld EnvCommand EnvCommand.Answer Thrown

inductive EnvChoice where
  | aws (choice : SecretChoice)
  | turned

/-- What happens outside: the clock goes on, others change the secrets manager. -/
inductive EnvEvent where
  | clock (now : Nat)
  | store (secretName : String) (secret : Option Secret)

namespace EnvWorld

/-- The secret was at some time stored under the name. -/
def Stored (w : EnvWorld) (secretName : String) (secret : Secret) : Prop :=
  ∃ keys ∈ w.keys :: w.past, keys.secrets secretName = some secret

def setKeys (w : EnvWorld) (keys : Keys Unit) : EnvWorld := { w with keys := keys }

/-- The secrets manager goes on to its next state. -/
def moveKeys (w : EnvWorld) (keys : Keys Unit) : EnvWorld :=
  { w with keys := keys, past := w.keys :: w.past }

/-- The call holds an answer, or none. -/
def hold (w : EnvWorld) (t : Nat) (held : Option Held) : EnvWorld :=
  { w with held := Function.update w.held t held, moment := w.moment + 1 }

/-- The call is over. -/
def release (w : EnvWorld) (t : Nat) : EnvWorld :=
  { w with held := Function.update w.held t none }

def ask (w : EnvWorld) (call : EnvCall) (secretId : String) : EnvWorld :=
  { w with asked := { call := call, secretId := secretId } :: w.asked }

/-- The number of the answer that the call holds. -/
def answerOf (w : EnvWorld) (t : Nat) : Nat := ((w.held t).map Held.answeredAt).getD 0

def deleteCached (w : EnvWorld) (secretName : String) : EnvWorld :=
  { w with secretEnvVarCache := Function.update w.secretEnvVarCache secretName none }

def ENV_SECRET_CACHE_TTL_MS : Nat := 5 * 60 * 1000

def setCached (w : EnvWorld) (t : Nat) (secretName secret : String) : EnvWorld :=
  { w with
    secretEnvVarCache := Function.update w.secretEnvVarCache secretName
      (some { value := secret, expiresAt := w.now + ENV_SECRET_CACHE_TTL_MS })
    stamps := Function.update w.stamps secretName
      (some { cachedAt := w.now, answeredAt := w.answerOf t }) }

/-- The call that holds no answer has taken its value from the cache. -/
def recordReturned (w : EnvWorld) (config : EnvConfig) (t : Nat) (secretName : String)
    (useEnvScopedName : Bool) (began : Nat) (value : Option String) : EnvWorld :=
  let key := EnvCall.key config (.read secretName useEnvScopedName)
  let stamp := if (w.held t).isSome then none else w.stamps key
  { w with
    returned :=
      { secretName := secretName, useEnvScopedName := useEnvScopedName, key := key, value := value
        time := w.now, began := began
        answeredAt := (stamp.map Stamp.answeredAt).getD (w.answerOf t)
        cachedAt := stamp.map Stamp.cachedAt } :: w.returned }

def settle (w : EnvWorld) (t : Nat) (secretName : String) : EnvWorld :=
  { w with settled := (secretName, w.answerOf t) :: w.settled }

def recordCreated (w : EnvWorld) (t : Nat) (secretName : String) : EnvWorld :=
  { w with
    created :=
      { secretName := secretName, effect := w.answerOf t, ended := w.moment + 1 } :: w.created
    moment := w.moment + 1 }

end EnvWorld

/-- What a question was answered ends it: there is a value, or there is no such secret. -/
def isFinal {α : Type} : Except Thrown α → Bool
  | .ok _ => true
  | .error e => isSecretNotFoundError e

/-- How the commands are answered. -/
def performEnv (config : EnvConfig) (w : EnvWorld) :
    (c : EnvCommand) → EnvChoice → Option (EnvWorld × Except Thrown c.Answer)
  | .aws t call command, .aws choice =>
    match performSecret w.keys command choice with
    | none => none
    | some (keys, answer) =>
      let w' := w.moveKeys keys
      let held : Option Held := if isFinal answer then some ⟨call.key config, w.moment + 1⟩ else none
      match command with
      | .getSecretValue secretId => some ((w'.hold t held).ask call secretId, answer)
      | .createSecret _ _ _ => some (w'.hold t held, answer)
      | _ => some (w', answer)
  | .turn t (.create secretName _), .turned => some (w.settle t secretName, .ok ())
  | .turn _ (.read _ _), .turned => some (w, .ok ())
  | _, _ => none

def envOutside (w : EnvWorld) : EnvEvent → Option EnvWorld
  | .clock now => if w.now ≤ now then some { w with now := now } else none
  | .store secretName secret =>
    some (w.moveKeys
      { w.keys with secrets := Function.update w.keys.secrets secretName secret })

/-! ## The service -/

section
variable (config : EnvConfig) (t : Nat) (call : EnvCall)

/-- A program of the wrapper service, with its commands in the larger world. -/
def awaited {α : Type} (m : KeyM Unit α) : EnvM α :=
  m.interpret EnvWorld.keys EnvWorld.setKeys fun command => Async.send (EnvCommand.aws t call command)

def getCachedSecretEnvVar (secretName : String) : EnvM (Option String) := do
  let w ← Async.get
  match w.secretEnvVarCache secretName with
  | none => pure none
  | some cachedSecret =>
    if cachedSecret.expiresAt ≤ w.now then do
      Async.modify (·.deleteCached secretName)
      pure none
    else pure (some cachedSecret.value)

def setCachedSecretEnvVar (secretName secret : String) : EnvM Unit :=
  Async.modify (·.setCached t secretName secret)

def updateCachedSecretEnvVar (secretName : String) (secret : Secret) : EnvM Unit :=
  match config.parseSecretString secret with
  | none => Async.modify (·.deleteCached secretName)
  | some secretString => setCachedSecretEnvVar t secretName secretString

/-- `getSecretEnvVar` from where the cache has nothing. -/
def fetchSecretEnvVar (secretName envScopedSecretName : String) : EnvM (Option String) := do
  let secret ← awaited t call (AWSSecretsService.get config.env envScopedSecretName)
  Async.send (EnvCommand.turn t call)
  match secret.bind config.parseSecretString with
  | some secretString => do
    setCachedSecretEnvVar t envScopedSecretName secretString
    pure (some secretString)
  | none =>
    match config.getString secretName with
    | none => pure none
    | some localSecret => do
      setCachedSecretEnvVar t envScopedSecretName localSecret
      pure (some localSecret)

def getSecretEnvVar (secretName : String) (useEnvScopedName : Bool) : EnvM (Option String) := do
  let env ← MonadExcept.ofExcept config.getEnv
  if env = .Local ∨ env = .Test then pure (config.getString secretName)
  else do
    let envScopedSecretName :=
      if useEnvScopedName then config.envScopedSecretName secretName else secretName
    let cachedSecret ← getCachedSecretEnvVar envScopedSecretName
    match cachedSecret with
    | some cachedSecret => pure (some cachedSecret)
    | none => fetchSecretEnvVar config t call secretName envScopedSecretName

/-- `create`, with the cache. -/
def createSecretEnvVar (secretName : String) (secret : Secret) : EnvM Unit := do
  awaited t call (AWSSecretsService.create config.env ⟨0, t⟩ secretName secret)
  Async.send (EnvCommand.turn t call)
  updateCachedSecretEnvVar config t secretName secret

end

/-- A call, with its record. -/
def EnvCall.program (config : EnvConfig) (t : Nat) : EnvCall → EnvM Unit
  | .read secretName useEnvScopedName => do
    let w ← Async.get
    try
      let value ← getSecretEnvVar config t (.read secretName useEnvScopedName) secretName
        useEnvScopedName
      Async.modify (·.recordReturned config t secretName useEnvScopedName w.moment value)
    catch _ => pure ()
    Async.modify (·.release t)
  | .create secretName secret => do
    try
      createSecretEnvVar config t (.create secretName secret) secretName secret
      Async.modify (·.recordCreated t secretName)
    catch _ => pure ()
    Async.modify (·.release t)

abbrev EnvMove := Move EnvCall EnvChoice EnvEvent

abbrev EnvState := AsyncState EnvWorld EnvCommand EnvCommand.Answer Thrown

def envStep (config : EnvConfig) (m : EnvState) (move : EnvMove) : Option EnvState :=
  asyncStep (EnvCall.program config) (performEnv config) envOutside m move

/-- A fresh process, with these secrets stored. -/
def EnvState.fresh (secrets : String → Option Secret) : EnvState :=
  .start { keys := { secrets := secrets, random := fun _ _ => [] } }

end QuietStorage.Encryption
