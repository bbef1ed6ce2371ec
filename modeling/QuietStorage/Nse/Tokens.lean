import QuietStorage.Lib.SingleUse
import QuietStorage.Nse.Auth

/-!
# Nse.Tokens — one token for one challenge

A challenge is a ticket that is used once (`Lib.SingleUse`): it is open while it is in the map, a
request that is going to verify it takes it out of the map in the same step in which it was found
there, and signing the token spends it. So no two requests hold one challenge, however they
interleave, and no challenge gets two tokens. What the request has checked meanwhile is recorded with
the token (`IssuedToken.Earned`), and a log is returned for a token only to the team that the token
names (`ChallengesProtect`).
-/

set_option autoImplicit false

namespace QuietStorage.Nse

open Lib Communities Storage

section
variable {Blob : Type}

/-! ## What a token stands for -/

/-- The chain is in memory for the team. -/
def InMemory (T : TeamId) (sigChain : SigChain) (s : State Blob) : Prop :=
  ∃ m, s.communities.get? T = some m ∧ m.sigChain = sigChain

/-- The device is a device of the team, was not removed from it, and has this key. -/
structure HasKey (config : NseConfig) (team : Team) (deviceId : JsValue) (key : Bytes) : Prop where
  kept : config.deviceWasRemoved team deviceId = false
  present : config.hasDevice team deviceId = true
  key : ∃ text, config.device team deviceId = .ok text ∧ base58Decode (.string text) = .ok key

namespace NseWorld

/-- How the world grows: the manager goes on from its states, and the record forgets nothing. -/
structure Grows (w w' : NseWorld Blob) : Prop where
  managers : w.timeline.Extends w'.timeline
  issued : ∀ issued ∈ w.issued, issued ∈ w'.issued
  consumed : ∀ consumption ∈ w.consumed, consumption ∈ w'.consumed
  tokens : ∀ token ∈ w.tokens, token ∈ w'.tokens

theorem Grows.refl (w : NseWorld Blob) : Grows w w where
  managers := .refl _
  issued := fun _ mem => mem
  consumed := fun _ mem => mem
  tokens := fun _ mem => mem

theorem Grows.trans {w w₁ w₂ : NseWorld Blob} (first : Grows w w₁) (second : Grows w₁ w₂) :
    Grows w w₂ where
  managers := first.managers.trans second.managers
  issued := fun _ mem => second.issued _ (first.issued _ mem)
  consumed := fun _ mem => second.consumed _ (first.consumed _ mem)
  tokens := fun _ mem => second.tokens _ (first.tokens _ mem)

/-- From the state `since` to the state `till`, a chain of the team was in memory, and on it the
device had this key. -/
def KeyRegistered (config : NseConfig) (w : NseWorld Blob) (teamId deviceId : JsValue) (key : Bytes)
    (since till : Nat) : Prop :=
  ∃ T sigChain, teamId = .string T ∧ w.timeline.Sometime (InMemory T sigChain) since till ∧
    w.timeline.Sometime (fun s => HasKey config (s.team sigChain) deviceId key) since till

theorem KeyRegistered.mono {config : NseConfig} {w w' : NseWorld Blob} {teamId deviceId : JsValue}
    {key : Bytes} {since till till' : Nat}
    (registered : w.KeyRegistered config teamId deviceId key since till) (grown : w.Grows w')
    (later : till ≤ till') : w'.KeyRegistered config teamId deviceId key since till' := by
  obtain ⟨T, sigChain, isTeam, inMemory, hasKey⟩ := registered
  exact ⟨T, sigChain, isTeam, inMemory.mono grown.managers le_rfl later,
    hasKey.mono grown.managers le_rfl later⟩

end NseWorld

/-- **The token comes from the challenge**: `stored` was issued under the id of the token's challenge,
for the device and the team of the token; it was consumed before its expiry; and the signature over
its packed bytes is valid under the key that the device had, in the team, between then and the
token. -/
structure IssuedToken.Earned (config : NseConfig) (w : NseWorld Blob) (token : IssuedToken)
    (stored : StoredChallenge) (consumption : Consumption) (signature key : Bytes) : Prop where
  issued : (token.challengeId, stored) ∈ w.issued
  device : stored.challenge.name = token.payload.deviceId
  team : stored.teamId = token.payload.teamId
  consumed : consumption ∈ w.consumed
  challenge : consumption.challengeId = token.challengeId
  unexpired : consumption.now ≤ stored.expiry
  registered : w.KeyRegistered config token.payload.teamId token.payload.deviceId key
    consumption.since token.time
  signed : config.crypto_sign_verify_detached signature (config.pack stored.challenge) key = .ok true

def IssuedToken.IsEarned (config : NseConfig) (w : NseWorld Blob) (token : IssuedToken) : Prop :=
  ∃ stored consumption signature key, token.Earned config w stored consumption signature key

theorem IssuedToken.IsEarned.mono {config : NseConfig} {w w' : NseWorld Blob} {token : IssuedToken}
    (earned : token.IsEarned config w) (grown : w.Grows w') : token.IsEarned config w' := by
  obtain ⟨stored, consumption, signature, key, earned⟩ := earned
  exact ⟨stored, consumption, signature, key,
    { issued := grown.issued _ earned.issued
      device := earned.device
      team := earned.team
      consumed := grown.consumed _ earned.consumed
      challenge := earned.challenge
      unexpired := earned.unexpired
      registered := earned.registered.mono grown le_rfl
      signed := earned.signed }⟩

/-- The log was read with a token that was issued, and is the log of its team. -/
def LogRead.Allowed (w : NseWorld Blob) (read : LogRead) : Prop :=
  ∃ token ∈ w.tokens, bearerToken read.authorization = .ok token.token ∧
    ∀ entry ∈ read.entries, token.payload.teamId = .string entry.communityId

theorem LogRead.Allowed.mono {w w' : NseWorld Blob} {read : LogRead} (allowed : read.Allowed w)
    (grown : w.Grows w') : read.Allowed w' := by
  obtain ⟨token, mem, presented, entries⟩ := allowed
  exact ⟨token, grown.tokens token mem, presented, entries⟩

/-- **Challenges protect the log**: no two challenges have one id and no challenge has two tokens,
every token comes from its challenge, and a log is read only with a token for its team. -/
structure ChallengesProtect (config : NseConfig) (w : NseWorld Blob) : Prop where
  ids : (w.issued.map Prod.fst).Nodup
  once : (w.tokens.map IssuedToken.challengeId).Nodup
  earned : ∀ token ∈ w.tokens, token.IsEarned config w
  reads : ∀ read ∈ w.reads, read.Allowed w

/-! ## The invariant -/

/-- The ids of the challenges in the map. -/
def NseWorld.openIds (w : NseWorld Blob) : Set String := {i | w.challenges.get? i ≠ none}

/-- The id of the challenge that a request is verifying. -/
def NseWorld.heldId (w : NseWorld Blob) : Nat → Option String :=
  Option.map Consumption.challengeId ∘ w.holding

theorem NseWorld.mem_openIds {w : NseWorld Blob} {i : String} :
    i ∈ w.openIds ↔ w.challenges.get? i ≠ none :=
  .rfl

theorem NseWorld.heldId_consume (w : NseWorld Blob) (t : Nat) (key : String) (now : Int) :
    (w.consume t key now).heldId = Function.update w.heldId t (some key) :=
  Function.comp_update _ _ _ _

theorem NseWorld.heldId_issueToken (w : NseWorld Blob) (t : Nat) (token : IssuedToken) :
    (w.issueToken t token).heldId = Function.update w.heldId t none :=
  Function.comp_update _ _ _ _

theorem taskOf_inj {t t' : Nat} (equal : taskOf t = taskOf t') : t = t' := by
  have double : 2 * t + 1 = 2 * t' + 1 := equal
  omega

structure NseInv (config : NseConfig) (w : NseWorld Blob) : Prop where
  wired : w.manager.Wired
  ids : (w.issued.map Prod.fst).Nodup
  exclusive : Exclusive w.openIds w.heldId (w.tokens.map IssuedToken.challengeId)
  openIssued : ∀ i stored, w.challenges.get? i = some stored → (i, stored) ∈ w.issued
  heldIssued : ∀ t c, w.holding t = some c → c.challengeId ∈ w.issued.map Prod.fst
  fetched : ∀ t T m, w.manager.tasks (taskOf t) = .resolved (.reader T) (some m) →
    w.timeline.Sometime (InMemory T m.sigChain) (w.asked t) w.now
  asked : ∀ t, w.asked t ≤ w.now
  earned : ∀ token ∈ w.tokens, token.IsEarned config w
  reads : ∀ read ∈ w.reads, read.Allowed w

namespace NseInv

variable {config : NseConfig} {w : NseWorld Blob}

theorem protects (inv : NseInv config w) : ChallengesProtect config w :=
  ⟨inv.ids, inv.exclusive.nodup, inv.earned, inv.reads⟩

theorem earned_mono (inv : NseInv config w) {w' : NseWorld Blob} (grown : w.Grows w') :
    ∀ token ∈ w.tokens, token.IsEarned config w' :=
  fun token mem => (inv.earned token mem).mono grown

theorem reads_mono (inv : NseInv config w) {w' : NseWorld Blob} (grown : w.Grows w') :
    ∀ read ∈ w.reads, read.Allowed w' :=
  fun read mem => (inv.reads read mem).mono grown

/-- Challenges leave the map. -/
theorem drop (inv : NseInv config w) {challenges : JsMap String StoredChallenge}
    (fewer : ∀ i stored, challenges.get? i = some stored → w.challenges.get? i = some stored) :
    NseInv config { w with challenges := challenges } ∧
      w.Grows { w with challenges := challenges } := by
  have grown : w.Grows { w with challenges := challenges } :=
    ⟨.refl _, fun _ mem => mem, fun _ mem => mem, fun _ mem => mem⟩
  refine ⟨{ inv with exclusive := ?_, openIssued := ?_, earned := ?_, reads := ?_ }, grown⟩
  · refine inv.exclusive.drop fun i there => ?_
    obtain ⟨stored, found⟩ := Option.ne_none_iff_exists'.mp there
    exact Option.ne_none_iff_exists'.mpr ⟨stored, fewer i stored found⟩
  · exact fun i stored found => inv.openIssued i stored (fewer i stored found)
  · exact inv.earned_mono grown
  · exact inv.reads_mono grown

theorem evict (inv : NseInv config w) (now : Int) :
    NseInv config (w.evictExpiredChallenges now) ∧ w.Grows (w.evictExpiredChallenges now) := by
  refine inv.drop ?_
  have fewer : ∀ (entries : List (String × StoredChallenge)) (challenges : JsMap String StoredChallenge)
      i stored, (entries.foldl (fun challenges entry =>
        if entry.2.expiry < now then challenges.delete entry.1 else challenges) challenges).get? i =
          some stored → challenges.get? i = some stored := by
    intro entries
    induction entries with
    | nil => exact fun _ _ _ found => found
    | cons entry entries ih =>
      intro challenges i stored found
      have found := ih _ i stored found
      dsimp only at found
      split at found
      · exact JsMap.get?_of_get?_delete found
      · exact found
  exact fewer _ _

theorem deleteChallenge (inv : NseInv config w) (challengeId : JsValue) :
    NseInv config (w.deleteChallenge challengeId) ∧ w.Grows (w.deleteChallenge challengeId) := by
  cases challengeId with
  | string key => exact inv.drop fun _ _ found => JsMap.get?_of_get?_delete found
  | _ => exact ⟨inv, .refl w⟩

/-- A challenge is issued under an id that no challenge had before. -/
theorem addChallenge (inv : NseInv config w) {challengeId : String} (stored : StoredChallenge)
    (fresh : ∀ issued ∈ w.issued, issued.1 ≠ challengeId) :
    NseInv config (w.addChallenge challengeId stored) ∧ w.Grows (w.addChallenge challengeId stored) := by
  have grown : w.Grows (w.addChallenge challengeId stored) :=
    ⟨.refl _, fun _ mem => List.mem_append_left _ mem, fun _ mem => mem, fun _ mem => mem⟩
  have unissued : challengeId ∉ w.issued.map Prod.fst := by
    intro mem
    obtain ⟨issued, mem, same⟩ := List.mem_map.mp mem
    exact fresh issued mem same
  refine ⟨{ inv with
    ids := ?_, exclusive := ?_, openIssued := ?_, heldIssued := ?_, earned := ?_, reads := ?_ }, grown⟩
  · rw [NseWorld.addChallenge, List.map_append, List.map_singleton, ← List.concat_eq_append]
    exact inv.ids.concat unissued
  · have unheld : ∀ t, w.heldId t ≠ some challengeId := by
      intro t isHeld
      obtain ⟨c, holds, isId⟩ := Option.map_eq_some_iff.mp isHeld
      exact unissued (isId ▸ inv.heldIssued t c holds)
    have unspent : challengeId ∉ w.tokens.map IssuedToken.challengeId := by
      intro mem
      obtain ⟨token, mem, same⟩ := List.mem_map.mp mem
      obtain ⟨stored, _, _, _, earned⟩ := inv.earned token mem
      exact fresh _ earned.issued same
    refine (inv.exclusive.issue unheld unspent).drop fun i there => ?_
    by_cases same : i = challengeId
    · exact .inl same
    · rw [NseWorld.mem_openIds, NseWorld.addChallenge, JsMap.get?_set_of_ne _ _ same] at there
      exact .inr there
  · intro i stored' found
    simp only [NseWorld.addChallenge, JsMap.get?_set] at found
    split at found
    · next same =>
      cases found
      exact List.mem_append_right _ (by rw [same]; exact List.mem_singleton_self _)
    · exact List.mem_append_left _ (inv.openIssued i stored' found)
  · intro t c holds
    rw [NseWorld.addChallenge, List.map_append]
    exact List.mem_append_left _ (inv.heldIssued t c holds)
  · exact inv.earned_mono grown
  · exact inv.reads_mono grown

/-- A challenge in the map is taken by a request. -/
theorem consume (inv : NseInv config w) (t : Nat) {key : String} {stored : StoredChallenge}
    (found : w.challenges.get? key = some stored) (now : Int) :
    NseInv config (w.consume t key now) ∧ w.Grows (w.consume t key now) := by
  have grown : w.Grows (w.consume t key now) :=
    ⟨.refl _, fun _ mem => mem, fun _ mem => List.mem_append_left _ mem, fun _ mem => mem⟩
  refine ⟨{ inv with
    exclusive := ?_, openIssued := ?_, heldIssued := ?_, earned := ?_, reads := ?_ }, grown⟩
  · have isOpen : key ∈ w.openIds := by
      rw [NseWorld.mem_openIds, found]
      exact Option.some_ne_none stored
    rw [NseWorld.heldId_consume]
    refine (inv.exclusive.take t isOpen).drop fun i there => ?_
    rw [NseWorld.mem_openIds, NseWorld.consume, JsMap.get?_delete] at there
    split at there
    · exact absurd rfl there
    · next other => exact ⟨there, other⟩
  · exact fun i stored left => inv.openIssued i stored (JsMap.get?_of_get?_delete left)
  · intro t' c holds
    simp only [NseWorld.consume, Function.update_apply] at holds
    split at holds
    · cases holds
      exact List.mem_map.mpr ⟨_, inv.openIssued key stored found, rfl⟩
    · exact inv.heldIssued t' c holds
  · exact inv.earned_mono grown
  · exact inv.reads_mono grown

/-- The manager moves on, and requests may call `get`: what a `get` holds was there before the call,
or is what is in memory. -/
theorem moveManager (inv : NseInv config w) {manager : State Blob} (wired : manager.Wired)
    {asked : Nat → Nat} (before : ∀ t, asked t ≤ w.now)
    (holds : ∀ t T m, manager.tasks (taskOf t) = .resolved (.reader T) (some m) →
      (w.manager.tasks (taskOf t) = .resolved (.reader T) (some m) ∧ asked t = w.asked t) ∨
        manager.communities.get? T = some m) :
    NseInv config { w.moveManager manager with asked := asked } ∧
      w.Grows { w.moveManager manager with asked := asked } := by
  have extended := w.timeline.extends_move manager
  have grown : w.Grows { w.moveManager manager with asked := asked } :=
    ⟨extended, fun _ mem => mem, fun _ mem => mem, fun _ mem => mem⟩
  refine ⟨{ inv with
    wired := wired, fetched := ?_, asked := ?_, earned := ?_, reads := ?_ }, grown⟩
  · intro t T m isTask
    rcases holds t T m isTask with ⟨still, same⟩ | found
    · exact (inv.fetched t T m still).mono extended same.le extended.now_le
    · exact Timeline.Sometime.of_now (l := w.timeline.move manager) ⟨m, found, rfl⟩
        ((before t).trans extended.now_le)
  · exact fun t => (before t).trans extended.now_le
  · exact inv.earned_mono grown
  · exact inv.reads_mono grown

/-- A request calls `get`. -/
theorem startGet (inv : NseInv config w) (t : Nat) (teamId : JsValue) :
    NseInv config (w.startGet t teamId) ∧ w.Grows (w.startGet t teamId) := by
  cases teamId with
  | string T =>
    obtain ⟨task, isGet, cached⟩ : ∃ task,
        w.manager.get (taskOf t) (.reader T) false = w.manager.setTask (taskOf t) task ∧
          ∀ caller m, task = .resolved caller (some m) →
            w.manager.communities.get? caller.teamId = some m := by
      unfold State.get
      split
      · next m found _ =>
        refine ⟨_, rfl, ?_⟩
        rintro _ _ ⟨⟩
        exact found
      · exact ⟨_, rfl, fun _ _ isTask => by cases isTask⟩
    rw [NseWorld.startGet, isGet]
    refine inv.moveManager (inv.wired.setTask _ _ cached) ?_ ?_
    · intro t'
      rw [Function.update_apply]
      split
      · exact le_rfl
      · exact inv.asked t'
    · intro t' T' m isTask
      by_cases same : t' = t
      · simp only [same, State.setTask, Function.update_self] at isTask
        exact .inr (cached _ m isTask)
      · have other : taskOf t' ≠ taskOf t := fun equal => same (taskOf_inj equal)
        simp only [State.setTask, Function.update_of_ne other] at isTask
        exact .inl ⟨isTask, Function.update_of_ne same ..⟩
  | _ => exact ⟨inv, .refl w⟩

/-- The `get` of a request is answered. -/
theorem answerGet (inv : NseInv config w) (t : Nat) :
    NseInv config (w.moveManager (w.manager.setTask (taskOf t) .idle)) ∧
      w.Grows (w.moveManager (w.manager.setTask (taskOf t) .idle)) := by
  refine inv.moveManager (inv.wired.setTask _ _ fun _ _ isTask => by cases isTask) inv.asked ?_
  intro t' T m isTask
  refine .inl ⟨?_, rfl⟩
  simp only [State.setTask, Function.update_apply] at isTask
  split at isTask
  · cases isTask
  · exact isTask

/-- The manager takes a step. -/
theorem managerStep (inv : NseInv config w) {lfa : Lfa Blob} {action : Action Blob}
    {manager : State Blob} (taken : step lfa w.manager action = some manager) :
    NseInv config (w.moveManager manager) ∧ w.Grows (w.moveManager manager) := by
  refine inv.moveManager (wired_step inv.wired taken) inv.asked fun t T m isTask => ?_
  exact (resolved_step inv.wired taken isTask).imp (fun before => ⟨before, rfl⟩) id

/-- A request signs the token of the challenge that it holds. -/
theorem issueToken (inv : NseInv config w) {t : Nat} {c : Consumption} (holds : w.holding t = some c)
    {token : IssuedToken} (isId : c.challengeId = token.challengeId)
    (earned : token.IsEarned config w) :
    NseInv config (w.issueToken t token) ∧ w.Grows (w.issueToken t token) := by
  have grown : w.Grows (w.issueToken t token) :=
    ⟨.refl _, fun _ mem => mem, fun _ mem => mem, fun _ mem => List.mem_append_left _ mem⟩
  refine ⟨{ inv with exclusive := ?_, heldIssued := ?_, earned := ?_, reads := ?_ }, grown⟩
  · have isHeld : w.heldId t = some token.challengeId := by
      rw [NseWorld.heldId, Function.comp_apply, holds, Option.map_some, isId]
    rw [NseWorld.heldId_issueToken, NseWorld.issueToken, List.map_append]
    exact inv.exclusive.spend isHeld
  · intro t' c' still
    simp only [NseWorld.issueToken, Function.update_apply] at still
    split at still
    · cases still
    · exact inv.heldIssued t' c' still
  · intro other mem
    rcases List.mem_append.mp mem with before | new
    · exact (inv.earned other before).mono grown
    · rw [List.mem_singleton.mp new]
      exact earned.mono grown
  · exact inv.reads_mono grown

/-- A log is returned. -/
theorem recordRead (inv : NseInv config w) {read : LogRead} (allowed : read.Allowed w) :
    NseInv config (w.recordRead read) ∧ w.Grows (w.recordRead read) := by
  have grown : w.Grows (w.recordRead read) :=
    ⟨.refl _, fun _ mem => mem, fun _ mem => mem, fun _ mem => mem⟩
  refine ⟨{ inv with earned := ?_, reads := ?_ }, grown⟩
  · exact inv.earned_mono grown
  · intro other mem
    rcases List.mem_append.mp mem with before | new
    · exact (inv.reads other before).mono grown
    · rw [List.mem_singleton.mp new]
      exact allowed.mono grown

/-- The log is written to, or libsodium gets ready. -/
theorem elsewhere (inv : NseInv config w) (db : Database) (sodiumReady : Bool) :
    NseInv config { w with db := db, sodiumReady := sodiumReady } ∧
      w.Grows { w with db := db, sodiumReady := sodiumReady } := by
  have grown : w.Grows { w with db := db, sodiumReady := sodiumReady } :=
    ⟨.refl _, fun _ mem => mem, fun _ mem => mem, fun _ mem => mem⟩
  refine ⟨{ inv with earned := ?_, reads := ?_ }, grown⟩
  · exact inv.earned_mono grown
  · exact inv.reads_mono grown

end NseInv

end

end QuietStorage.Nse
