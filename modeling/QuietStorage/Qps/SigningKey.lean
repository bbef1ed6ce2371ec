import QuietStorage.Encryption.OneKey
import QuietStorage.Lib.Interpret
import QuietStorage.Qps.Service

/-!
# Qps.SigningKey — the signing key of QPS, in every process

`UcanService` with its start: a process takes the signing key from the secrets manager, or generates
one and stores it there, and signs and checks UCANs in the name of its DID. The processes share one
secrets manager with the keys of `Encryption.KeyManager`, and all of their calls interleave.

**Processes.** A process has the number of the task that starts it, and a process starts once
(`onModuleInit`). Its requests are tasks of any number.

**Outside.** `UcanLibrary` stands for `@ucans/ucans`. `validate` accepts a token that names a key of
QPS as its issuer only if it was built with a key of QPS (`SigningWorld.genuine`). The secrets manager
is that of `Encryption.Secrets`.

**The record.** The keys that processes have held, the tokens that were built, and the results of the
validations. No program reads it.
-/

set_option autoImplicit false

namespace QuietStorage.Qps

open Lib Encryption Websocket

/-! ## The library -/

/-- What a device is registered with. -/
structure UcanFields where
  deviceToken : String
  bundleId : String
  platform : String
  teamId : String
  deriving DecidableEq, Repr

/-- What is built for a device, by an issuer and for an audience. -/
def UcanFields.payload (fields : UcanFields) (issuer audience : String) : UcanPayload :=
  { qpsPayload audience (.string fields.deviceToken) (.string fields.bundleId)
      (.string fields.platform) (.string fields.teamId) with iss := issuer }

/-- What `validateUcan` returns for it. -/
def UcanFields.accepted (fields : UcanFields) : UcanValidationResult where
  valid := true
  deviceToken := .string fields.deviceToken
  bundleId := .string fields.bundleId
  platform := .string fields.platform
  teamId := .string fields.teamId

/-- `@ucans/ucans`. `build` is the token that `build` and `encode` make; the number stands for what
the library chooses itself. -/
structure UcanLibrary (Keypair : Type) where
  fromSecretKey : String → Except Thrown Keypair
  /-- `keypair.export('base64')`. -/
  exportKey : Keypair → String
  did : Keypair → String
  build : UcanPayload → Nat → String
  parse : String → Except Thrown UcanPayload

/-- An exported key is read as the key, and a token as what it was built of. -/
structure UcanLibrary.Lawful {Keypair : Type} (library : UcanLibrary Keypair) : Prop where
  keypair : ∀ keypair, library.fromSecretKey (library.exportKey keypair) = .ok keypair
  ucan : ∀ (fields : UcanFields) issuer audience n,
    library.parse (library.build (fields.payload issuer audience) n) =
      .ok (fields.payload issuer audience)

/-- What the services are set up with. -/
structure SigningConfig (Keypair : Type) where
  keys : KeyConfig
  library : UcanLibrary Keypair

/-! ## The world -/

/-- A token that was built, by whom and for what. -/
structure BuiltUcan where
  token : String
  issuer : String
  audience : String
  fields : UcanFields

/-- A token that was validated. -/
structure ValidatedUcan where
  token : String
  result : UcanValidationResult

structure SigningWorld (Keypair : Type) where
  keys : Keys KeyAnswer
  /-- The process has begun to start. -/
  started : Process → Bool
  keypair : Process → Option Keypair
  qpsDid : Process → Option String
  held : List Keypair
  built : List BuiltUcan
  validated : List ValidatedUcan

inductive SigningCommand (Keypair : Type) where
  | secret (c : SecretCommand)
  /-- `EdKeypair.create`. -/
  | create
  | exportKey (keypair : Keypair)
  /-- `ucans.build`. -/
  | build (issuer : Keypair) (audience : String) (fields : UcanFields)
  /-- `ucans.validate`. -/
  | validate (token : String)

abbrev SigningCommand.Answer {Keypair : Type} : SigningCommand Keypair → Type
  | .secret c => c.Answer
  | .create => Keypair
  | .exportKey _ => String
  | .build _ _ _ => String
  | .validate _ => Unit

abbrev SigningM (Keypair : Type) :=
  Async (SigningWorld Keypair) (SigningCommand Keypair) SigningCommand.Answer Thrown

namespace SigningWorld

variable {Keypair : Type} (w : SigningWorld Keypair)

def setKeys (keys : Keys KeyAnswer) : SigningWorld Keypair := { w with keys := keys }

def start (process : Process) : SigningWorld Keypair :=
  { w with started := Function.update w.started process true }

/-- `this.keypair = keypair`. -/
def setKeypair (process : Process) (keypair : Keypair) : SigningWorld Keypair :=
  { w with
    keypair := Function.update w.keypair process (some keypair)
    held := w.held ++ [keypair] }

/-- `this.qpsDid = qpsDid`. -/
def setQpsDid (process : Process) (qpsDid : String) : SigningWorld Keypair :=
  { w with qpsDid := Function.update w.qpsDid process (some qpsDid) }

def recordBuilt (built : BuiltUcan) : SigningWorld Keypair := { w with built := w.built ++ [built] }

def recordValidated (validated : ValidatedUcan) : SigningWorld Keypair :=
  { w with validated := w.validated ++ [validated] }

/-- `ucans.validate` may accept the token: if it names a key of QPS as its issuer, QPS has built it. -/
def genuine (library : UcanLibrary Keypair) (token : String) : Bool :=
  match library.parse token with
  | .error _ => true
  | .ok parsed =>
    if w.held.any fun keypair => library.did keypair = parsed.iss then
      w.built.any fun built => built.token = token
    else true

end SigningWorld

section
variable {Keypair : Type} (config : SigningConfig Keypair)

/-! ## UcanService -/

/-- A function of the services of `Encryption`, on the secrets manager of the processes. -/
def onKeys {α : Type} (m : KeyM KeyAnswer α) : SigningM Keypair α :=
  m.interpret SigningWorld.keys SigningWorld.setKeys fun c => Async.send (SigningCommand.secret c)

def getSecretName : String := s!"qps/{config.keys.env.short}-signing-key"

/-- The two branches of `initializeKeypair`: the process takes the key that is stored, or stores one. -/
def takeKeypair (process : Process) : SigningM Keypair Unit := do
  let secretName := getSecretName config
  let existingSecret ← onKeys (AWSSecretsService.get config.keys.env secretName)
  match existingSecret with
  | some (.string text) =>
    let keypair ← MonadExcept.ofExcept (config.library.fromSecretKey text)
    Async.modify (·.setKeypair process keypair)
  | _ =>
    let keypair ← Async.send SigningCommand.create
    Async.modify (·.setKeypair process keypair)
    let secretKeyBase64 ← Async.send (SigningCommand.exportKey keypair)
    onKeys (AWSSecretsService.create config.keys.env ⟨process, 0⟩ secretName
      (.string secretKeyBase64))

def initializeKeypair (process : Process) : SigningM Keypair Unit := do
  takeKeypair config process
  let w ← Async.get
  match w.keypair process with
  | some keypair => Async.modify (·.setQpsDid process (config.library.did keypair))
  | none => throw (.error "Cannot read properties of undefined (reading 'did')")

def UcanService.createUcan (process : Process) (fields : UcanFields) : SigningM Keypair String := do
  let w ← Async.get
  match w.keypair process, w.qpsDid process with
  | some keypair, some qpsDid => Async.send (SigningCommand.build keypair qpsDid fields)
  | _, _ => throw (.error "QPS signing key not initialized")

/-- `error instanceof Error ? error.message : ..`. -/
def errorText : Thrown → String
  | .aws shape => shape.message.getD ""
  | .error message => message
  | .compound message _ => message
  | .value _ => "Unknown error validating UCAN"

/-- `await ucans.validate(token)`, and whether it threw. -/
def ucanValidates (token : String) : SigningM Keypair Bool := do
  try
    Async.send (SigningCommand.validate token)
    pure true
  catch _ => pure false

def notInitialized : UcanValidationResult :=
  { valid := false, error := some "QPS signing key not initialized" }

def invalidSignature : UcanValidationResult :=
  { valid := false, error := some "Invalid UCAN signature or structure" }

/-- The checks on what was parsed, with `this.qpsDid` as it is then. -/
def checkParsed (qpsDid : Option String) (parsed : UcanPayload) : UcanValidationResult :=
  match qpsDid with
  | some qpsDid => checkPayload qpsDid parsed
  | none => { valid := false, error := some "UCAN must be issued by QPS" }

def UcanService.validateUcan (process : Process) (token : String) :
    SigningM Keypair UcanValidationResult := do
  let w ← Async.get
  if (w.qpsDid process).isNone then pure notInitialized
  else
    try
      let parsed ← MonadExcept.ofExcept (config.library.parse token)
      let accepted ← ucanValidates token
      if accepted then
        let w ← Async.get
        pure (checkParsed (w.qpsDid process) parsed)
      else pure invalidSignature
    catch e => pure { valid := false, error := some (errorText e) }

/-! ## The machine -/

/-- A call in a process; `onModuleInit` is the start of the process of its task. -/
inductive SigningCall where
  | onModuleInit
  | createUcan (process : Process) (fields : UcanFields)
  | validateUcan (process : Process) (token : String)
  /-- A call of the key services. -/
  | keys (call : KeyCall)

def SigningCall.program (t : Nat) : SigningCall → SigningM Keypair Unit
  | .onModuleInit => do
    let w ← Async.get
    if w.started t then pure ()
    else do
      Async.modify (·.start t)
      initializeKeypair config t
  | .createUcan process fields => discard (UcanService.createUcan process fields)
  | .validateUcan process token => do
    let result ← UcanService.validateUcan config process token
    Async.modify (·.recordValidated { token := token, result := result })
  | .keys call => onKeys (call.program config.keys)

/-- How a command is answered. -/
inductive SigningChoice (Keypair : Type) where
  | secret (choice : SecretChoice)
  | created (keypair : Keypair)
  | built (n : Nat)
  | succeeds
  | fails (error : Thrown)

/-- The token that is built, for the record. -/
def builtUcan (issuer : Keypair) (audience : String) (fields : UcanFields) (n : Nat) : BuiltUcan where
  token := config.library.build (fields.payload (config.library.did issuer) audience) n
  issuer := config.library.did issuer
  audience := audience
  fields := fields

def performSigning (w : SigningWorld Keypair) : (c : SigningCommand Keypair) →
    SigningChoice Keypair → Option (SigningWorld Keypair × Except Thrown c.Answer)
  | .secret c, .secret choice =>
    (performSecret w.keys c choice).map fun performed => (w.setKeys performed.1, performed.2)
  | .create, .created keypair => some (w, .ok keypair)
  | .exportKey keypair, .succeeds => some (w, .ok (config.library.exportKey keypair))
  | .build issuer audience fields, .built n =>
    let built := builtUcan config issuer audience fields n
    some (w.recordBuilt built, .ok built.token)
  | .validate token, .succeeds => if w.genuine config.library token then some (w, .ok ()) else none
  | .create, .fails e => some (w, .error e)
  | .exportKey _, .fails e => some (w, .error e)
  | .build _ _ _, .fails e => some (w, .error e)
  | .validate _, .fails e => some (w, .error e)
  | _, _ => none

abbrev SigningMove (Keypair : Type) := Move SigningCall (SigningChoice Keypair) Empty

abbrev SigningState (Keypair : Type) :=
  AsyncState (SigningWorld Keypair) (SigningCommand Keypair) SigningCommand.Answer Thrown

def signingStep (m : SigningState Keypair) (move : SigningMove Keypair) :
    Option (SigningState Keypair) :=
  asyncStep (SigningCall.program config) (performSigning config) (fun _ event => event.elim) m move

/-- No process has started, on what the secrets manager holds; the tokens were built before. -/
def SigningState.fresh (secrets : String → Option Secret) (random : Nat → Nat → Bytes)
    (built : List BuiltUcan) : SigningState Keypair :=
  .start
    { keys := { secrets, random }
      started := fun _ => false
      keypair := fun _ => none
      qpsDid := fun _ => none
      held := []
      built := built
      validated := [] }

end

end QuietStorage.Qps
