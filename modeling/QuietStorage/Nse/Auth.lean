import QuietStorage.Communities.Wiring
import QuietStorage.Lib.Async
import QuietStorage.Lib.Timeline
import QuietStorage.Nse.Base58
import QuietStorage.Storage.Queries

/-!
# Nse.Auth — challenges, tokens and the log, for the notification extension

`NseAuthService`, `NseJwtAuthGuard` and `NseAuthController` as programs, on one machine with the
manager of communities: a device asks for a challenge, answers it with a signature and gets a token,
and reads the log of its team with the token.

**Outside.** `NseConfig` stands for what `@localfirst/auth` says of the devices of a team, for
`msgpackr` and for libsodium. A token that `verifyAsync` accepts was signed by this server, and reads
as what was signed. The random bytes of a challenge and the readings of the clock are in the label of
the call.

**`get`.** The lookup of a community is a task of the manager: it begins in the call, and its answer
is awaited. The tasks of the requests are those with odd numbers (`taskOf`).

**The record.** The manager's states are kept as they pass. Each challenge is recorded when it is
issued and when it leaves the map to be verified, each token with its challenge, and each log that was
read with the header it was asked with. No program reads the record.

Left out: the logger, and the body of an error's response.
-/

set_option autoImplicit false

namespace QuietStorage.Nse

open Lib Communities Storage

/-! ## Data -/

structure ChallengePayload where
  type : String
  name : JsValue
  nonce : String
  timestamp : Int

structure StoredChallenge where
  challenge : ChallengePayload
  teamId : JsValue
  expiry : Int

def CHALLENGE_TTL_MS : Int := 30000

/-- What a token says. -/
structure TokenPayload where
  deviceId : JsValue
  teamId : JsValue

structure NseLogEntry where
  cid : String
  hashedDbId : Option String
  communityId : TeamId
  entry : Bytes
  receivedAt : Int
  syncSeq : Int
  deriving DecidableEq

structure NseLogEntriesResponse where
  entries : List NseLogEntry
  resolvedAfterSeq : Int

/-- What the service calls outside. -/
structure NseConfig where
  deviceWasRemoved : Team → JsValue → Bool
  hasDevice : Team → JsValue → Bool
  /-- `team.device(deviceId).keys.signature`. -/
  device : Team → JsValue → Except NseError String
  pack : ChallengePayload → Bytes
  crypto_sign_verify_detached : Bytes → Bytes → Bytes → Except NseError Bool

/-! ## The world -/

/-- A challenge has left the map to be verified, at the clock reading `now`; `since` is the number of
the manager's state. -/
structure Consumption where
  challengeId : String
  now : Int
  since : Nat
  deriving DecidableEq, Repr

/-- A token that was signed, for the challenge that was answered. -/
structure IssuedToken where
  token : String
  payload : TokenPayload
  challengeId : String
  time : Nat

/-- A log that was returned. -/
structure LogRead where
  authorization : Option String
  entries : List NseLogEntry

structure NseWorld (Blob : Type) where
  sodiumReady : Bool
  challenges : JsMap String StoredChallenge
  manager : State Blob
  db : Database
  /-- The states that the manager was in before, the oldest first. -/
  past : List (State Blob)
  issued : List (String × StoredChallenge)
  consumed : List Consumption
  /-- The challenge that a request is verifying. -/
  holding : Nat → Option Consumption
  /-- The number of the manager's state in which a request has called `get`. -/
  asked : Nat → Nat
  tokens : List IssuedToken
  reads : List LogRead

/-- The task of the manager that runs the `get` of a request. -/
def taskOf (t : Nat) : TaskId := 2 * t + 1

namespace NseWorld

variable {Blob : Type}

def timeline (w : NseWorld Blob) : Timeline (State Blob) := ⟨w.past, w.manager⟩

/-- The number of the manager's state. -/
def now (w : NseWorld Blob) : Nat := w.timeline.now

/-- The manager moves to its next state. -/
def moveManager (w : NseWorld Blob) (manager : State Blob) : NseWorld Blob :=
  { w with manager := manager, past := w.timeline.states }

/-- `this.challenges.get(challengeId)`, with its key. -/
def challenge? (w : NseWorld Blob) : JsValue → Option (String × StoredChallenge)
  | .string key => (w.challenges.get? key).map fun stored => (key, stored)
  | _ => none

theorem get?_of_challenge? {w : NseWorld Blob} {challengeId : JsValue} {key : String}
    {stored : StoredChallenge} (found : w.challenge? challengeId = some (key, stored)) :
    w.challenges.get? key = some stored := by
  cases challengeId with
  | string s =>
    obtain ⟨_, isStored, ⟨⟩⟩ := Option.map_eq_some_iff.mp found
    exact isStored
  | _ => cases found

/-- `this.challenges.delete(challengeId)`. -/
def deleteChallenge (w : NseWorld Blob) : JsValue → NseWorld Blob
  | .string key => { w with challenges := w.challenges.delete key }
  | _ => w

/-- The deletion of a challenge that is going to be verified by request `t`. -/
def consume (w : NseWorld Blob) (t : Nat) (key : String) (now : Int) : NseWorld Blob :=
  let consumption : Consumption := { challengeId := key, now := now, since := w.now }
  { w with
    challenges := w.challenges.delete key
    consumed := w.consumed ++ [consumption]
    holding := Function.update w.holding t (some consumption) }

/-- `this.challenges.set(challengeId, stored)`. -/
def addChallenge (w : NseWorld Blob) (challengeId : String) (stored : StoredChallenge) :
    NseWorld Blob :=
  { w with
    challenges := w.challenges.set challengeId stored
    issued := w.issued ++ [(challengeId, stored)] }

/-- `get` up to its first await. -/
def startGet (w : NseWorld Blob) (t : Nat) : JsValue → NseWorld Blob
  | .string teamId =>
    { w.moveManager (w.manager.get (taskOf t) (.reader teamId) false) with
      asked := Function.update w.asked t w.now }
  | _ => w

/-- `evictExpiredChallenges`. -/
def evictExpiredChallenges (w : NseWorld Blob) (now : Int) : NseWorld Blob :=
  { w with
    challenges := w.challenges.entries.foldl
      (fun challenges entry =>
        if entry.2.expiry < now then challenges.delete entry.1 else challenges) w.challenges }

/-- The token of a request is signed. -/
def issueToken (w : NseWorld Blob) (t : Nat) (token : IssuedToken) : NseWorld Blob :=
  { w with tokens := w.tokens ++ [token], holding := Function.update w.holding t none }

def recordRead (w : NseWorld Blob) (read : LogRead) : NseWorld Blob :=
  { w with reads := w.reads ++ [read] }

end NseWorld

inductive NseCommand where
  /-- The promise of the `get` that request `t` has called. -/
  | get (t : Nat) (teamId : JsValue)
  | signAsync (t : Nat) (challengeId : String) (payload : TokenPayload)
  | verifyAsync (token : String)
  | resolveSyncSeqForTimestamp (teamId : TeamId) (timestamp : Int)
  | getLogEntriesForCommunity (teamId : TeamId) (afterSeq : Int)

abbrev NseCommand.Answer : NseCommand → Type
  | .get _ _ => Option ManagedCommunity
  | .signAsync _ _ _ => String
  | .verifyAsync _ => TokenPayload
  | .resolveSyncSeqForTimestamp _ _ => Int
  | .getLogEntriesForCommunity _ _ => List LogSyncEntry

abbrev NseM (Blob : Type) := Async (NseWorld Blob) NseCommand NseCommand.Answer NseError

/-- An operation of the language. -/
def typed {α : Type} (r : Except TypeError α) : Except NseError α :=
  r.mapError fun _ => .typeError

/-! ## NseAuthService -/

section
variable {Blob : Type} (config : NseConfig)

/-- The random bytes of a challenge, and the readings of the clock in their order. -/
structure ChallengeDraw where
  idBytes : Bytes
  nonceBytes : Bytes
  evictedAt : Int
  timestamp : Int
  expiresFrom : Int

structure ChallengeResponse where
  challengeId : String
  challenge : ChallengePayload

def issueChallenge (deviceId teamId : JsValue) (draw : ChallengeDraw) :
    NseM Blob ChallengeResponse := do
  Async.modify (·.evictExpiredChallenges draw.evictedAt)
  let challengeId := toHex draw.idBytes
  let nonce ← MonadExcept.ofExcept (base58Encode draw.nonceBytes)
  let challenge : ChallengePayload :=
    { type := "DEVICE", name := deviceId, nonce := nonce, timestamp := draw.timestamp }
  Async.modify (·.addChallenge challengeId
    { challenge := challenge, teamId := teamId, expiry := draw.expiresFrom + CHALLENGE_TTL_MS })
  pure { challengeId := challengeId, challenge := challenge }

def getRegisteredDeviceSignatureKey (t : Nat) (teamId deviceId : JsValue) : NseM Blob String := do
  Async.modify (·.startGet t teamId)
  let community ← Async.send (NseCommand.get t teamId)
  match community with
  | none => throw (.unauthorized "Unknown team")
  | some community =>
    let w ← Async.get
    let team := w.manager.team community.sigChain
    if config.deviceWasRemoved team deviceId then
      throw (.unauthorized "Device was removed from team")
    else if config.hasDevice team deviceId = false then
      throw (.unauthorized "Unknown device for team")
    else
      try MonadExcept.ofExcept (config.device team deviceId)
      catch _ => throw (.unauthorized "Unknown device for team")

/-- The bytes of the signature and of the public key. -/
def decodeProof (proof : JsValue) : Except NseError (Bytes × Bytes) := do
  let sigBytes ← base58Decode (← typed (proof.property "signature"))
  let pubKeyBytes ← base58Decode (← typed (proof.property "publicKey"))
  .ok (sigBytes, pubKeyBytes)

structure TokenResponse where
  token : String
  expiresIn : Nat

/-- What follows the deletion of the challenge. -/
def verifyConsumed (t : Nat) (key : String) (stored : StoredChallenge) (deviceId proof : JsValue) :
    NseM Blob TokenResponse := do
  let (sigBytes, pubKeyBytes) ←
    (try MonadExcept.ofExcept (decodeProof proof)
      catch _ => throw (.unauthorized "Invalid base58 in proof"))
  let expectedPubKey ← getRegisteredDeviceSignatureKey config t stored.teamId deviceId
  let expectedPubKeyBytes ←
    (try MonadExcept.ofExcept (base58Decode (.string expectedPubKey))
      catch _ => throw (.unauthorized "Registered device key is invalid"))
  if pubKeyBytes ≠ expectedPubKeyBytes then
    throw (.unauthorized "Proof key does not match registered device")
  else
    let messageBytes := config.pack stored.challenge
    let valid ← MonadExcept.ofExcept
      (config.crypto_sign_verify_detached sigBytes messageBytes expectedPubKeyBytes)
    if valid = false then throw (.unauthorized "Invalid signature")
    else
      let token ← Async.send
        (NseCommand.signAsync t key { deviceId := deviceId, teamId := stored.teamId })
      pure { token := token, expiresIn := 900 }

/-- The clock reads `now`. -/
def verifyAndIssueToken (t : Nat) (challengeId deviceId proof : JsValue) (now : Int) :
    NseM Blob TokenResponse := do
  let w ← Async.get
  if w.sodiumReady = false then throw (.unauthorized "Crypto not ready")
  else
    match (w.challenge? challengeId).filter fun entry => !decide (entry.2.expiry < now) with
    | none =>
      Async.modify (·.deleteChallenge challengeId)
      throw (.unauthorized "Challenge expired or not found")
    | some (key, stored) =>
      if stored.challenge.name.strictEquals deviceId = false then
        Async.modify (·.deleteChallenge challengeId)
        throw (.unauthorized "Challenge does not belong to device")
      else
        Async.modify (·.consume t key now)
        verifyConsumed config t key stored deviceId proof

/-! ## NseJwtAuthGuard -/

/-- A character that `trim` and `parseInt` skip. -/
def isWhiteSpace (c : Char) : Bool :=
  c ∈ ['\t', '\n', '\x0b', '\x0c', '\r', ' ', '\u00a0', '\u1680', '\u2028', '\u2029', '\u202f',
    '\u205f', '\u3000', '\ufeff'] || 0x2000 ≤ c.val && c.val ≤ 0x200a

/-- `token.trim()`. -/
def trim (chars : List Char) : String :=
  String.ofList ((chars.dropWhile isWhiteSpace).reverse.dropWhile isWhiteSpace).reverse

/-- The token of an `Authorization` header. -/
def bearerToken (authorization : Option String) : Except NseError String :=
  match authorization with
  | none => .error (.unauthorized "Missing or malformed Authorization header")
  | some authHeader =>
    if "Bearer ".toList.isPrefixOf authHeader.toList then
      let token := trim (authHeader.toList.drop 7)
      if token = "" then .error (.unauthorized "Empty Bearer token") else .ok token
    else .error (.unauthorized "Missing or malformed Authorization header")

/-- The payload becomes the `user` of the request. -/
def canActivate (authorization : Option String) : NseM Blob TokenPayload := do
  let token ← MonadExcept.ofExcept (bearerToken authorization)
  try Async.send (NseCommand.verifyAsync token)
  catch _ => throw (.unauthorized "Invalid or expired token")

/-! ## NseAuthController -/

/-- `parseInt(value, 10)`, with no number for `NaN`. A number beyond the largest binary64 number is
`Infinity`. -/
def parseInt (value : JsValue) : Except TypeError (Option Int) := do
  let chars := (← value.text).toList.dropWhile isWhiteSpace
  let (negative, chars) :=
    match chars with
    | '-' :: rest => (true, rest)
    | '+' :: rest => (false, rest)
    | _ => (false, chars)
  let digits := chars.takeWhile Char.isDigit
  let n : Int := JsNumber.ofInt (digits.foldl (fun n c => n * 10 + (c.toNat - '0'.toNat)) 0 : Nat)
  .ok (if digits.isEmpty then none else some (if negative then -n else n))

/-- `value !== '' ? parseInt(value, 10) : NaN`. -/
def queryNumber (value : JsValue) : Except TypeError (Option Int) :=
  if value.strictEquals (.string "") then .ok none else parseInt value

def toNseLogEntry (e : LogSyncEntry) : NseLogEntry where
  cid := e.cid
  hashedDbId := e.hashedDbId
  communityId := e.communityId
  entry := e.entry
  receivedAt := e.receivedAt
  syncSeq := e.syncSeq.getD 0

/-- `afterSeqNum ?? await resolveSyncSeqForTimestamp(teamId, sinceMs ?? 0)`. -/
def resolveAfterSeq (teamId : TeamId) (afterSeqNum sinceMs : Option Int) : NseM Blob Int :=
  match afterSeqNum with
  | some afterSeqNum => pure afterSeqNum
  | none => Async.send (NseCommand.resolveSyncSeqForTimestamp teamId (sinceMs.getD 0))

/-- The entries are never null. -/
def getLogEntries (teamId : TeamId) (afterSeq since : JsValue) (user : TokenPayload) :
    NseM Blob NseLogEntriesResponse := do
  if user.teamId.strictEquals (.string teamId) = false then
    throw (.unauthorized "Token teamId does not match path")
  else
    let afterSeqNum ← MonadExcept.ofExcept (typed (queryNumber afterSeq))
    let sinceMs ← MonadExcept.ofExcept (typed (queryNumber since))
    let resolvedAfterSeq ← resolveAfterSeq teamId afterSeqNum sinceMs
    let entries ← Async.send (NseCommand.getLogEntriesForCommunity teamId resolvedAfterSeq)
    pure { entries := entries.map toNseLogEntry, resolvedAfterSeq := resolvedAfterSeq }

/-- A request, with what it draws and reads of the clock. -/
inductive NseCall where
  | challenge (body : JsValue) (draw : ChallengeDraw)
  | token (body : JsValue) (now : Int)
  | logs (authorization : Option String) (teamId : TeamId) (afterSeq since : JsValue)

def NseCall.program (t : Nat) : NseCall → NseM Blob Unit
  | .challenge body draw => do
    let deviceId ← MonadExcept.ofExcept (typed (body.property "deviceId"))
    let teamId ← MonadExcept.ofExcept (typed (body.property "teamId"))
    discard (issueChallenge deviceId teamId draw)
  | .token body now => do
    let challengeId ← MonadExcept.ofExcept (typed (body.property "challengeId"))
    let deviceId ← MonadExcept.ofExcept (typed (body.property "deviceId"))
    let proof ← MonadExcept.ofExcept (typed (body.property "proof"))
    discard (verifyAndIssueToken config t challengeId deviceId proof now)
  | .logs authorization teamId afterSeq since => do
    let user ← canActivate authorization
    let response ← getLogEntries teamId afterSeq since user
    Async.modify (·.recordRead { authorization := authorization, entries := response.entries })

/-! ## The machine -/

/-- How a command is answered. -/
inductive NseChoice where
  /-- `get` has returned, or the database answers. -/
  | returned
  | signed (token : String)
  /-- The token is the one that was signed as the `i`-th. -/
  | verified (i : Nat)
  | fails (e : NseError)

/-- What else happens. -/
inductive NseEvent (Blob : Type) where
  | manager (action : Action Blob)
  /-- `sodium.ready` has settled. -/
  | sodiumReady
  /-- The cleanup interval has elapsed. -/
  | cleanup (now : Int)
  /-- The log is written to. -/
  | database (db : Database)

/-- `resolveSyncSeqForTimestamp`, with its test for a finite number. -/
def resolveTimestamp (db : Database) (teamId : TeamId) (timestamp : Int) : Option Int :=
  if timestamp.natAbs < 2 ^ 1024 then Storage.resolveSyncSeqForTimestamp db teamId timestamp
  else some 0

/-- A query that the database refuses throws. -/
def queried {α : Type} (answer : Option α) : Except NseError α :=
  match answer with
  | some a => .ok a
  | none => .error (.error "DriverException")

/-- What a command may be answered by. The log is read from the primary. -/
def performNse (w : NseWorld Blob) :
    (c : NseCommand) → NseChoice → Option (NseWorld Blob × Except NseError c.Answer)
  | .get t (.string teamId), .returned =>
    match w.manager.tasks (taskOf t) with
    | .resolved (.reader teamId') managedCommunity =>
      if teamId = teamId' then
        some (w.moveManager (w.manager.setTask (taskOf t) .idle), .ok managedCommunity)
      else none
    | _ => none
  -- an id that is no text is the id of no community
  | .get _ _, .returned => some (w, .ok none)
  | .signAsync t challengeId payload, .signed token =>
    some (w.issueToken t
      { token := token, payload := payload, challengeId := challengeId, time := w.now }, .ok token)
  | .verifyAsync token, .verified i =>
    match w.tokens[i]? with
    | some issued => if issued.token = token then some (w, .ok issued.payload) else none
    | none => none
  | .resolveSyncSeqForTimestamp teamId timestamp, .returned =>
    some (w, queried (resolveTimestamp w.db teamId timestamp))
  | .getLogEntriesForCommunity teamId afterSeq, .returned =>
    some (w, queried (Storage.getLogEntriesForCommunity w.db teamId afterSeq))
  | .get _ _, .fails e => some (w, .error e)
  | .signAsync _ _ _, .fails e => some (w, .error e)
  | .verifyAsync _, .fails e => some (w, .error e)
  | .resolveSyncSeqForTimestamp _ _, .fails e => some (w, .error e)
  | .getLogEntriesForCommunity _ _, .fails e => some (w, .error e)
  | _, _ => none

variable (lfa : Lfa Blob)

/-- The run is that of one process. -/
def nseOutside (w : NseWorld Blob) : NseEvent Blob → Option (NseWorld Blob)
  | .manager .restart => none
  | .manager action => (step lfa w.manager action).map w.moveManager
  | .sodiumReady => some { w with sodiumReady := true }
  | .cleanup now => some (w.evictExpiredChallenges now)
  | .database db => some { w with db := db }

abbrev NseMove (Blob : Type) := Move NseCall NseChoice (NseEvent Blob)

abbrev NseState (Blob : Type) :=
  AsyncState (NseWorld Blob) NseCommand NseCommand.Answer NseError

def nseStep (m : NseState Blob) (move : NseMove Blob) : Option (NseState Blob) :=
  asyncStep (NseCall.program config) performNse (nseOutside lfa) m move

/-- A fresh process over the stored communities and the log. -/
def NseState.fresh (stored : TeamId → Option Blob) (db : Database) : NseState Blob :=
  .start
    { sodiumReady := false
      challenges := .empty
      manager := .start stored
      db := db
      past := []
      issued := []
      consumed := []
      holding := fun _ => none
      asked := fun _ => 0
      tokens := []
      reads := [] }

end

end QuietStorage.Nse
