import Mathlib.Data.List.Infix
import QuietStorage.Lib.Async
import QuietStorage.Types

/-!
# Encryption.Secrets — the secrets manager and its wrapper service

`AWSSecretsService`: `get` with its attempts, and `create`. The processes of the server share one
secrets manager, which is outside of them: its commands are awaited, and `performSecret` says what it
may answer. A secret that is there is found, or the command fails, retryably or not; a name is not
found only if it is absent. `createSecret` stores the secret if the name is absent, and an answer
that was to say so may get lost; a name that is there is never stored again.

A local server keeps its secrets in Redis, where a second `set` overwrites.

`Keys` is the state that the services share: the secrets, the key that each process has in memory,
and what sodium will draw. It also keeps, for the results, which key each encryption used, who
created a secret, and a log of the calls and their answers.

Left out: `getSecretEnvVar` with its cache, which reads configuration (see `Encryption.EnvSecrets`).
-/

set_option autoImplicit false

namespace QuietStorage.Encryption

open Lib

/-! ## Errors -/

/-- What the service reads of an error of the SDK. -/
structure AwsErrorShape where
  name : Option String := none
  code : Option String := none
  message : Option String := none
  httpStatusCode : Option Nat := none
  retryable : Bool := false
  deriving DecidableEq, Repr

/-- What is thrown: an `Error` of the SDK, an `Error` with a message, a `CompoundError`, or a value
that is no `Error` (with its text, if it is one). -/
inductive Thrown where
  | aws (shape : AwsErrorShape)
  | error (message : String)
  | compound (message : String) (original : Thrown)
  | value (text : Option String)
  deriving DecidableEq, Repr

def toAwsErrorShape : Thrown → AwsErrorShape
  | .aws shape => shape
  | .error message => { name := some "Error", message := some message }
  | .compound message _ => { name := some "Error", message := some message }
  | .value _ => {}

def isSecretNotFoundError (error : Thrown) : Bool :=
  let awsError := toAwsErrorShape error
  awsError.name = some "ResourceNotFoundException" ||
    awsError.code = some "ResourceNotFoundException" || awsError.httpStatusCode = some 404

/-- `text.includes(part)`. -/
def includes (text part : String) : Bool := decide (part.toList <:+: text.toList)

/-- The error names that `get` tries again after. -/
def retryableNames : List String :=
  ["InternalServiceError", "InternalServiceErrorException", "ServiceUnavailableException",
    "ThrottlingException", "TooManyRequestsException", "TimeoutError", "TimeoutException",
    "RequestTimeout", "NetworkingError", "NetworkError"]

def isRetryableGetSecretError (error : Thrown) : Bool :=
  let awsError := toAwsErrorShape error
  let retryableStatus := match awsError.httpStatusCode with
    | none => false
    | some statusCode => statusCode = 408 || statusCode = 429 || 500 ≤ statusCode
  let retryableName := match awsError.name.orElse fun _ => awsError.code with
    | none => false
    | some errorName => decide (errorName ∈ retryableNames)
  let retryableMessage := match awsError.message with
    | none => false
    | some message =>
      ["timeout", "network", "socket hang up", "econnreset"].any (includes message.toLower)
  retryableStatus || awsError.retryable || retryableName || retryableMessage

def normalizeError : Thrown → Thrown
  | .value (some text) => .error text
  | .value none => .error "Unknown AWS secrets service error"
  | error => error

/-! ## The secrets manager -/

/-- A stored secret: `SecretString` or `SecretBinary`. -/
inductive Secret where
  | string (text : String)
  | binary (bytes : Bytes)
  deriving DecidableEq, Repr

structure GetSecretValueCommandOutput where
  SecretString : Option String := none
  SecretBinary : Option Bytes := none
  deriving DecidableEq, Repr

/-- The response for a secret. -/
def Secret.output : Secret → GetSecretValueCommandOutput
  | .string text => { SecretString := some text }
  | .binary bytes => { SecretBinary := some bytes }

/-- A server process. -/
abbrev Process := Nat

/-- Who calls a service: the process it runs in, and the number of the call. The number is read by no
function of the source. -/
structure Caller where
  process : Process
  call : Nat
  deriving DecidableEq, Repr

inductive SecretCommand where
  | getSecretValue (secretId : String)
  | createSecret (caller : Caller) (name : String) (secret : Secret)
  | redisGet (secretName : String)
  | redisSet (secretName : String) (secret : Secret)
  | sleep (ms : Nat)

/-- What a command is answered by. -/
abbrev SecretCommand.Answer : SecretCommand → Type
  | .getSecretValue _ => GetSecretValueCommandOutput
  | .createSecret _ _ _ => Unit
  | .redisGet _ => Option Secret
  | .redisSet _ _ => Unit
  | .sleep _ => Unit

/-- The shared state. -/
structure Keys (Log : Type) where
  secrets : String → Option Secret
  /-- `serverEncKey` of the process. -/
  serverEncKey : Process → Option Bytes := fun _ => none
  /-- What sodium draws: the `n`-th draw, of a length. -/
  random : Nat → Nat → Bytes
  drawn : Nat := 0
  /-- The keys that were handed to `crypto_secretbox_easy`. -/
  encryptedWith : List Bytes := []
  creator : String → Option Caller := fun _ => none
  log : List Log := []

/-- How a command is answered. -/
inductive SecretChoice where
  | succeeds
  /-- The secret is there and the response has no value. -/
  | valueless
  /-- The command fails without an effect. -/
  | fails (error : Thrown)
  /-- `createSecret` has its effect and then fails. -/
  | loses (error : Thrown)

section
variable {Log : Type}

/-- The secret is stored under the name. -/
def Keys.store (keys : Keys Log) (caller : Caller) (name : String) (secret : Secret) : Keys Log :=
  { keys with
    secrets := Function.update keys.secrets name (some secret)
    creator := Function.update keys.creator name (some caller) }

/-- What the secrets manager does with a command, `none` if it does not answer so. -/
def performSecret (keys : Keys Log) :
    (c : SecretCommand) → SecretChoice → Option (Keys Log × Except Thrown c.Answer)
  | .getSecretValue secretId, choice =>
    match keys.secrets secretId, choice with
    | some secret, .succeeds => some (keys, .ok secret.output)
    | some _, .valueless => some (keys, .ok {})
    | some _, .fails error => if isSecretNotFoundError error then none else some (keys, .error error)
    | none, .fails error => some (keys, .error error)
    | _, _ => none
  | .createSecret caller name secret, choice =>
    match keys.secrets name, choice with
    | none, .succeeds => some (keys.store caller name secret, .ok ())
    | none, .loses error => some (keys.store caller name secret, .error error)
    | _, .fails error => some (keys, .error error)
    | _, _ => none
  | .redisGet secretName, choice =>
    match choice with
    | .succeeds => some (keys, .ok (keys.secrets secretName))
    | .fails error => some (keys, .error error)
    | _ => none
  | .redisSet secretName secret, choice =>
    match choice with
    | .succeeds =>
      some ({ keys with secrets := Function.update keys.secrets secretName (some secret) }, .ok ())
    | .fails error => some (keys, .error error)
    | _ => none
  | .sleep _, choice =>
    match choice with
    | .succeeds => some (keys, .ok ())
    | _ => none

/-! ## The wrapper service -/

/-- A program of the key services. -/
abbrev KeyM (Log : Type) := Async (Keys Log) SecretCommand SecretCommand.Answer Thrown

inductive Environment where
  | Development | Production | Local | Test
  deriving DecidableEq, Repr

/-- `AWSSecretsService.local`. -/
def Environment.isLocal : Environment → Bool
  | .Development | .Production => false
  | .Local | .Test => true

def GET_SECRET_MAX_ATTEMPTS : Nat := 3
def GET_SECRET_RETRY_DELAY_MS : Nat := 100

namespace AWSSecretsService

/-- The body of the `try` of one attempt. -/
def fetch (secretName : String) : KeyM Log (Option Secret) := do
  let response ← Async.send (SecretCommand.getSecretValue secretName)
  match response.SecretString, response.SecretBinary with
  | some text, _ => pure (some (.string text))
  | none, some bytes => pure (some (.binary bytes))
  | none, none =>
    throw (.error s!"Secret {secretName} was found but did not include a secret value")

/-- One attempt of `get`, with the number of attempts that are left after it. -/
def attempt (secretName : String) : (left : Nat) → KeyM Log (Option Secret)
  | 0 =>
    try fetch secretName
    catch e =>
      if isSecretNotFoundError e then pure none
      else throw (normalizeError e)
  | left + 1 =>
    try fetch secretName
    catch e =>
      if isSecretNotFoundError e then pure none
      else if isRetryableGetSecretError e then do
        Async.send (SecretCommand.sleep GET_SECRET_RETRY_DELAY_MS)
        attempt secretName left
      else throw (normalizeError e)

def get (env : Environment) (secretName : String) : KeyM Log (Option Secret) :=
  if env.isLocal then Async.send (SecretCommand.redisGet secretName)
  else attempt secretName (GET_SECRET_MAX_ATTEMPTS - 1)

def create (env : Environment) (caller : Caller) (secretName : String) (secret : Secret) :
    KeyM Log Unit := do
  try
    if env.isLocal then Async.send (SecretCommand.redisSet secretName secret)
    else Async.send (SecretCommand.createSecret caller secretName secret)
  catch e => throw (.compound "Error putting secret into AWS" (normalizeError e))

end AWSSecretsService

end

end QuietStorage.Encryption
