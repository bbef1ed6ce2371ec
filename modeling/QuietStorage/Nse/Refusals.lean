import QuietStorage.Nse.Auth

/-!
# Nse.Refusals — how a bad proof is answered

`verifyAndIssueToken` throws at seven places, and three of the calls that may throw something else
stand inside a `try`. One does not: libsodium's check of the signature, which throws a `TypeError` for
a signature that has not 64 bytes. `ReachesSignature` says of a call, in terms of what it was given and
what is stored, that it comes as far as that check.

A call is run with whatever else happens while it awaits (`performMeanwhile`): the lookup finds a given
team or none, the token is signed, and no other request is given the id of the challenge.
-/

set_option autoImplicit false

namespace QuietStorage.Nse

open Lib Communities

section
variable {Blob : Type}

/-- What an await is answered with, and the world by then. -/
structure Meanwhile (Blob : Type) where
  world : NseWorld Blob
  community : Option ManagedCommunity
  token : String

/-- Neither the lookup nor the signing throws, and an id that names no challenge stays free. -/
def performMeanwhile (challengeId : JsValue) (team : Option Team) (w : NseWorld Blob) (c : NseCommand)
    (m : Meanwhile Blob) : Option (NseWorld Blob × Except NseError c.Answer) :=
  if (w.challenge? challengeId).isNone && (m.world.challenge? challengeId).isSome then none
  else
    match c with
    | .get _ _ =>
      if m.community.map (fun community => m.world.manager.team community.sigChain) = team then
        some (m.world, .ok m.community)
      else none
    | .signAsync t challengeId payload =>
      some (m.world.issueToken t
        { token := m.token, payload := payload, challengeId := challengeId, time := m.world.now },
        .ok m.token)
    | _ => none

/-- The device is registered with the team, with this key. -/
structure Registered (config : NseConfig) (team : Option Team) (deviceId : JsValue) (text : String) :
    Prop where
  of : ∃ found, team = some found ∧ config.deviceWasRemoved found deviceId = false ∧
    config.hasDevice found deviceId = true ∧ config.device found deviceId = .ok text

/-- A token, or an `UnauthorizedException`. -/
def Settled {α : Type} : Except NseError α → Prop
  | .ok _ => True
  | .error (.unauthorized _) => True
  | .error _ => False

/-! ## Up to the signature -/

variable {config : NseConfig} {challengeId : JsValue} {team : Option Team} {w w' : NseWorld Blob}
  {t : Nat} {deviceId proof : JsValue}

@[simp] theorem challenge?_startGet (w : NseWorld Blob) (t : Nat) (teamId challengeId : JsValue) :
    (w.startGet t teamId).challenge? challengeId = w.challenge? challengeId := by
  cases teamId <;> rfl

@[simp] theorem challenge?_issueToken (w : NseWorld Blob) (t : Nat) (token : IssuedToken)
    (challengeId : JsValue) : (w.issueToken t token).challenge? challengeId = w.challenge? challengeId := by
  cases challengeId <;> rfl

/-- The world in which the team is found. -/
def NseWorld.finding (w : NseWorld Blob) (team : Team) : NseWorld Blob :=
  { w with manager := { w.manager with links := fun _ => team.links } }

@[simp] theorem challenge?_finding (w : NseWorld Blob) (found : Team) (challengeId : JsValue) :
    (w.finding found).challenge? challengeId = w.challenge? challengeId := by
  cases challengeId <;> rfl

/-- A community with the team. -/
def communityOf (found : Team) : ManagedCommunity where
  teamId := found.id
  sigChain := { id := 0, teamId := found.id, listens := false }

theorem get_finds (w : NseWorld Blob) (t : Nat) (found : Team) (teamId : JsValue) :
    performMeanwhile challengeId (some found) w (.get t teamId)
      { world := w.finding found, community := some (communityOf found), token := "" } =
      some (w.finding found, .ok (some (communityOf found))) := by
  have isFound : (w.finding found).manager.team (communityOf found).sigChain = found := rfl
  cases free : w.challenge? challengeId <;> simp [performMeanwhile, isFound, free]

end

/-! ## A proof with a signature of one byte -/

end QuietStorage.Nse
