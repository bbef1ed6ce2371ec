import QuietStorage.Nse.Tokens

/-!
# Nse.Protocol — every run of challenges, tokens and reads

The requests keep the invariant of `Nse.Tokens` at each of their awaits, so it holds in every state of
every run, whatever else happens: `challenges_protect`. The one assumption on the run is that the
random ids are fresh (`FreshId`).
-/

set_option autoImplicit false

namespace QuietStorage.Nse

open Lib Communities Storage

section
variable {Blob : Type}

/-- What a request relies on while it waits: nobody else touches what it holds. -/
def nseDiscipline (config : NseConfig) : Discipline (NseWorld Blob) where
  Inv := NseInv config
  Grows := NseWorld.Grows
  Keeps := fun t w w' => w'.holding t = w.holding t ∧ w'.asked t = w.asked t
  Idle := fun _ _ => True
  refl := .refl
  trans := .trans
  keeps_refl := fun _ _ => ⟨rfl, rfl⟩
  keeps_trans := fun first second => ⟨second.1.trans first.1, second.2.trans first.2⟩
  idle_keeps := fun _ _ => trivial

/-- The rules for the programs of this machine. -/
abbrev MeetsNse {α : Type} (config : NseConfig) (t : Nat)
    (Q : NseWorld Blob → Except NseError α → Prop) : NseM Blob α → NseWorld Blob → Prop :=
  Meets (nseDiscipline config) t performNse Q

variable {config : NseConfig} {t : Nat} {w : NseWorld Blob}

/-- A change of neither what is held nor what was asked. -/
theorem acts_nse {w' : NseWorld Blob} (grown : w.Grows w')
    (holding : ∀ t', t' ≠ t → w'.holding t' = w.holding t')
    (asked : ∀ t', t' ≠ t → w'.asked t' = w.asked t') : (nseDiscipline config).Acts t w w' :=
  ⟨grown, fun t' other => ⟨holding t' other, asked t' other⟩⟩

/-- The request is verifying the challenge: it holds it, and has found it unexpired and issued for
the device. -/
structure Verifying (w : NseWorld Blob) (t : Nat) (key : String) (stored : StoredChallenge)
    (deviceId : JsValue) (c : Consumption) : Prop where
  holds : w.holding t = some c
  isKey : c.challengeId = key
  consumed : c ∈ w.consumed
  issued : (key, stored) ∈ w.issued
  device : stored.challenge.name = deviceId
  unexpired : c.now ≤ stored.expiry
  began : c.since ≤ w.now

theorem Verifying.mono {w' : NseWorld Blob} {key : String} {stored : StoredChallenge}
    {deviceId : JsValue} {c : Consumption} (verifying : Verifying w t key stored deviceId c)
    (grown : w.Grows w') (same : w'.holding t = w.holding t) :
    Verifying w' t key stored deviceId c where
  holds := same.trans verifying.holds
  isKey := verifying.isKey
  consumed := grown.consumed _ verifying.consumed
  issued := grown.issued _ verifying.issued
  device := verifying.device
  unexpired := verifying.unexpired
  began := verifying.began.trans grown.managers.now_le

variable {key : String} {stored : StoredChallenge} {deviceId : JsValue} {c : Consumption}

/-- How `get` may be answered. -/
theorem performNse_get {w' : NseWorld Blob} {teamId : JsValue} {choice : NseChoice}
    {r : Except NseError (Option ManagedCommunity)}
    (performed : performNse w (.get t teamId) choice = some (w', r)) :
    (w' = w ∧ ∀ m, r ≠ .ok (some m)) ∨
      ∃ T community, teamId = .string T ∧ r = .ok community ∧
        w.manager.tasks (taskOf t) = .resolved (.reader T) community ∧
        w' = w.moveManager (w.manager.setTask (taskOf t) .idle) := by
  cases choice with
  | returned =>
    cases teamId with
    | string T =>
      dsimp only [performNse] at performed
      split at performed
      · next T' community isTask =>
        split at performed
        · next same =>
          cases performed
          exact .inr ⟨T, community, rfl, rfl, same ▸ isTask, rfl⟩
        · cases performed
      · cases performed
    | _ =>
      cases performed
      exact .inl ⟨rfl, fun m isOk => by cases isOk⟩
  | fails e =>
    cases teamId <;> cases performed <;> exact .inl ⟨rfl, fun m isOk => by cases isOk⟩
  | _ => cases teamId <;> cases performed

/-- What `get` returns was in memory for the team since the challenge was consumed. -/
theorem get_meets_nse (verifying : Verifying w t key stored deviceId c) {teamId : JsValue}
    (asked : ∀ T, teamId = .string T → c.since ≤ w.asked t) :
    MeetsNse config t
      (fun w' r => Verifying w' t key stored deviceId c ∧ ∀ m, r = .ok (some m) →
        ∃ T, teamId = .string T ∧ w'.timeline.Sometime (InMemory T m.sigChain) c.since w'.now)
      (Async.send (NseCommand.get t teamId)) w := by
  refine meets_send fun w₁ rely inv choice w₂ r performed => ?_
  have verifying := verifying.mono rely.grows rely.keeps.1
  rcases performNse_get performed with ⟨rfl, nothing⟩ | ⟨T, community, rfl, rfl, isTask, rfl⟩
  · refine ⟨inv, .refl t w₂, fun w₃ rely₃ _ => ⟨verifying.mono rely₃.grows rely₃.keeps.1, ?_⟩⟩
    exact fun m isOk => absurd isOk (nothing m)
  · obtain ⟨inv₂, grown⟩ := inv.answerGet t
    refine ⟨inv₂, acts_nse grown (fun _ _ => rfl) fun _ _ => rfl, fun w₃ rely₃ _ => ?_⟩
    refine ⟨(verifying.mono grown rfl).mono rely₃.grows rely₃.keeps.1, ?_⟩
    rintro m ⟨⟩
    have extended := grown.managers.trans rely₃.grows.managers
    refine ⟨T, rfl, (inv.fetched t T m isTask).mono extended ?_ extended.now_le⟩
    rw [rely.keeps.2]
    exact asked T rfl

/-- The key was registered for the device, in the team, since the challenge was consumed. -/
def Resolved (config : NseConfig) (w : NseWorld Blob) (teamId deviceId : JsValue) (c : Consumption)
    (r : Except NseError String) : Prop :=
  ∀ text, r = .ok text → ∀ key, base58Decode (.string text) = .ok key →
    w.KeyRegistered config teamId deviceId key c.since w.now

theorem Resolved.of_error {teamId deviceId : JsValue} {e : NseError} :
    Resolved config w teamId deviceId c (.error e) :=
  fun _ isOk => by cases isOk

theorem getRegisteredDeviceSignatureKey_meets (inv : NseInv config w)
    (verifying : Verifying w t key stored deviceId c) (teamId : JsValue) :
    MeetsNse config t
      (fun w' r => Verifying w' t key stored deviceId c ∧ Resolved config w' teamId deviceId c r)
      (getRegisteredDeviceSignatureKey config t teamId deviceId) w := by
  obtain ⟨inv₁, grown₁⟩ := inv.startGet t teamId
  have holding : (w.startGet t teamId).holding = w.holding := by
    cases teamId <;> rfl
  have others : ∀ t', t' ≠ t → (w.startGet t teamId).asked t' = w.asked t' := by
    intro t' other
    cases teamId with
    | string T => exact Function.update_of_ne other ..
    | _ => rfl
  have asked : ∀ T, teamId = .string T → c.since ≤ (w.startGet t teamId).asked t := by
    rintro T rfl
    exact verifying.began.trans (Function.update_self t w.now w.asked).ge
  have verifying := verifying.mono grown₁ (congrFun holding t)
  refine meets_modify_bind inv₁ (acts_nse grown₁ (fun t' _ => congrFun holding t') others) ?_
  refine meets_bind inv₁ (get_meets_nse verifying asked) ?_
    fun w' e _ _ held => ⟨held.1, .of_error⟩
  intro w' community inv' _ held
  obtain ⟨verifying', found⟩ := held
  cases community with
  | none => exact ⟨verifying', .of_error⟩
  | some m =>
    obtain ⟨T, rfl, inMemory⟩ := found m rfl
    refine meets_get_bind inv' ?_
    dsimp only
    split
    · exact ⟨verifying', .of_error⟩
    · next kept =>
      split
      · exact ⟨verifying', .of_error⟩
      · next present =>
        refine meets_ofExcept_catch (fun text isText => ⟨verifying', ?_⟩) ⟨verifying', .of_error⟩
        rintro _ ⟨⟩ bytes isKey
        have hasKey : HasKey config (w'.manager.team m.sigChain) deviceId bytes :=
          ⟨Bool.eq_false_of_not_eq_true kept, Bool.eq_true_of_not_eq_false present, text, isText, isKey⟩
        exact ⟨T, m.sigChain, rfl, inMemory, Timeline.Sometime.of_now hasKey verifying'.began⟩

/-- The token of a challenge whose signature was checked is signed. -/
theorem signAsync_meets (verifying : Verifying w t key stored deviceId c) {signature bytes : Bytes}
    (registered : w.KeyRegistered config stored.teamId deviceId bytes c.since w.now)
    (signed : config.crypto_sign_verify_detached signature (config.pack stored.challenge) bytes =
      .ok true) :
    MeetsNse config t (fun _ _ => True)
      (Async.send
        (NseCommand.signAsync t key { deviceId := deviceId, teamId := stored.teamId })) w := by
  refine meets_send fun w₁ rely inv choice w₂ r performed => ?_
  have verifying := verifying.mono rely.grows rely.keeps.1
  cases choice with
  | signed token =>
    cases performed
    have earned : IssuedToken.IsEarned config w₁ ⟨token, ⟨deviceId, stored.teamId⟩, key, w₁.now⟩ :=
      ⟨stored, c, signature, bytes,
        { issued := verifying.issued
          device := verifying.device
          team := rfl
          consumed := verifying.consumed
          challenge := verifying.isKey
          unexpired := verifying.unexpired
          registered := registered.mono rely.grows rely.grows.managers.now_le
          signed := signed }⟩
    obtain ⟨inv₂, grown⟩ := inv.issueToken verifying.holds verifying.isKey earned
    refine ⟨inv₂, acts_nse grown (fun t' other => ?_) fun _ _ => rfl, fun _ _ _ => trivial⟩
    exact Function.update_of_ne other ..
  | fails e =>
    cases performed
    exact ⟨inv, .refl t w₁, fun _ _ _ => trivial⟩
  | _ => cases performed

theorem verifyConsumed_meets (inv : NseInv config w)
    (verifying : Verifying w t key stored deviceId c) (proof : JsValue) :
    MeetsNse config t (fun _ _ => True) (verifyConsumed config t key stored deviceId proof) w := by
  refine meets_ofExcept_catch_bind (fun decoded _ => ?_) trivial
  refine meets_bind inv (getRegisteredDeviceSignatureKey_meets inv verifying stored.teamId) ?_
    fun _ _ _ _ _ => trivial
  intro w' expectedPubKey inv' _ held
  obtain ⟨verifying, resolved⟩ := held
  refine meets_ofExcept_catch_bind (fun expectedPubKeyBytes isKey => ?_) trivial
  have registered := resolved expectedPubKey rfl expectedPubKeyBytes isKey
  dsimp only
  split
  · trivial
  · refine meets_ofExcept_bind (fun valid isValid => ?_) fun _ _ => trivial
    split
    · trivial
    · next signed =>
      rw [Bool.eq_true_of_not_eq_false signed] at isValid
      exact meets_bind inv' (signAsync_meets verifying registered isValid)
        (fun _ _ _ _ _ => trivial) fun _ _ _ _ _ => trivial

/-- A deletion touches nothing that is held. -/
theorem deleteChallenge_acts (inv : NseInv config w) (challengeId : JsValue) :
    (nseDiscipline config).Acts t w (w.deleteChallenge challengeId) := by
  refine acts_nse (inv.deleteChallenge challengeId).2 (fun t' _ => ?_) fun t' _ => ?_
  · cases challengeId <;> rfl
  · cases challengeId <;> rfl

theorem refused_meets {α : Type} (inv : NseInv config w) (challengeId : JsValue) (e : NseError) :
    MeetsNse config t (fun _ _ => True)
      (do Async.modify (·.deleteChallenge challengeId); throw e : NseM Blob α) w :=
  meets_modify_bind (inv.deleteChallenge challengeId).1 (deleteChallenge_acts inv challengeId) trivial

theorem verifyAndIssueToken_meets (inv : NseInv config w) (challengeId deviceId proof : JsValue)
    (now : Int) :
    MeetsNse config t (fun _ _ => True)
      (verifyAndIssueToken config t challengeId deviceId proof now) w := by
  refine meets_get_bind inv ?_
  split
  · trivial
  · split
    · exact refused_meets inv challengeId _
    · next key stored isEntry =>
      split
      · exact refused_meets inv challengeId _
      · next own =>
        obtain ⟨isEntry, unexpired⟩ := Option.filter_eq_some_iff.mp isEntry
        have found := NseWorld.get?_of_challenge? isEntry
        obtain ⟨inv₁, grown⟩ := inv.consume t found now
        refine meets_modify_bind inv₁ (acts_nse grown (fun t' other => ?_) fun _ _ => rfl) ?_
        · exact Function.update_of_ne other ..
        · have verifying : Verifying (w.consume t key now) t key stored deviceId ⟨key, now, w.now⟩ :=
            { holds := Function.update_self ..
              isKey := rfl
              consumed := List.mem_append_right _ (List.mem_singleton_self _)
              issued := inv.openIssued key stored found
              device := JsValue.eq_of_strictEquals (Bool.eq_true_of_not_eq_false own)
              unexpired := by simpa using unexpired
              began := le_rfl }
          exact verifyConsumed_meets inv₁ verifying proof

theorem evict_acts (inv : NseInv config w) (now : Int) :
    (nseDiscipline config).Acts t w (w.evictExpiredChallenges now) :=
  acts_nse (inv.evict now).2 (fun _ _ => rfl) fun _ _ => rfl

/-- A challenge is issued, if its id is fresh. -/
theorem issueChallenge_meets (inv : NseInv config w) (deviceId teamId : JsValue)
    (draw : ChallengeDraw) (fresh : ∀ issued ∈ w.issued, issued.1 ≠ toHex draw.idBytes) :
    MeetsNse config t (fun _ _ => True) (issueChallenge deviceId teamId draw) w := by
  refine meets_modify_bind (inv.evict draw.evictedAt).1 (evict_acts inv draw.evictedAt) ?_
  refine meets_ofExcept_bind (fun nonce _ => ?_) fun _ _ => trivial
  obtain ⟨inv₂, grown₂⟩ := (inv.evict draw.evictedAt).1.addChallenge
    ⟨⟨"DEVICE", deviceId, nonce, draw.timestamp⟩, teamId, draw.expiresFrom + CHALLENGE_TTL_MS⟩ fresh
  exact meets_modify_bind inv₂ (acts_nse grown₂ (fun _ _ => rfl) fun _ _ => rfl) trivial

/-! ## Reading a log -/

/-- The header of the request carries a token that was issued, with this payload. -/
def Bears (w : NseWorld Blob) (authorization : Option String) (payload : TokenPayload) : Prop :=
  ∃ token ∈ w.tokens, bearerToken authorization = .ok token.token ∧ token.payload = payload

/-- **Unforgeable**: a token that is accepted was signed, with the payload it reads as. -/
theorem canActivate_meets (inv : NseInv config w) (authorization : Option String) :
    MeetsNse config t (fun w' r => ∀ payload, r = .ok payload → Bears w' authorization payload)
      (canActivate authorization) w := by
  refine meets_ofExcept_bind (fun token presented => ?_) fun _ _ _ isOk => by cases isOk
  have verified : MeetsNse config t
      (fun w' r => ∀ payload, r = .ok payload → Bears w' authorization payload)
      (Async.send (NseCommand.verifyAsync token)) w := by
    refine meets_send fun w₁ rely inv₁ choice w₂ r performed => ?_
    cases choice with
    | verified i =>
      dsimp only [performNse] at performed
      split at performed
      · next issued isIssued =>
        split at performed
        · next same =>
          cases performed
          refine ⟨inv₁, .refl t w₁, fun w₃ rely₃ _ => ?_⟩
          rintro _ ⟨⟩
          have mem := rely₃.grows.tokens issued (List.mem_of_getElem? isIssued)
          exact ⟨issued, mem, presented.trans (congrArg _ same.symm), rfl⟩
        · cases performed
      · cases performed
    | fails e =>
      cases performed
      exact ⟨inv₁, .refl t w₁, fun _ _ _ _ isOk => by cases isOk⟩
    | _ => cases performed
  exact meets_tryCatch inv verified (fun _ _ _ _ bears => bears) fun _ _ _ _ _ _ isOk => by
    cases isOk

/-- A query changes nothing. -/
theorem query_meets {command : NseCommand} {Q : Except NseError command.Answer → Prop}
    (reads : ∀ (w : NseWorld Blob) choice w' r, performNse w command choice = some (w', r) →
      w' = w ∧ Q r) :
    MeetsNse config t (fun _ r => Q r) (Async.send command) w := by
  refine meets_send fun w₁ rely inv choice w₂ r performed => ?_
  obtain ⟨rfl, holds⟩ := reads w₁ choice w₂ r performed
  exact ⟨inv, .refl t w₂, fun _ _ _ => holds⟩

/-- The entries of one team, for a token of that team. -/
def OfTeam (user : TokenPayload) (r : Except NseError NseLogEntriesResponse) : Prop :=
  ∀ response, r = .ok response → ∀ entry ∈ response.entries,
    user.teamId = .string entry.communityId

theorem resolveAfterSeq_meets (teamId : TeamId) (afterSeqNum sinceMs : Option Int) :
    MeetsNse config t (fun _ _ => True) (resolveAfterSeq teamId afterSeqNum sinceMs) w := by
  cases afterSeqNum with
  | some n => trivial
  | none =>
    refine query_meets fun w choice w' r performed => ?_
    cases choice <;> cases performed <;> exact ⟨rfl, trivial⟩

/-- The entries that are read are entries of the team. -/
def ReadsOf (teamId : TeamId) (r : Except NseError (List LogSyncEntry)) : Prop :=
  ∀ entries, r = .ok entries → ∀ e ∈ entries, e.communityId = teamId

theorem getLogEntriesForCommunity_meets (teamId : TeamId) (afterSeq : Int) :
    MeetsNse config t (fun _ r => ReadsOf teamId r)
      (Async.send (NseCommand.getLogEntriesForCommunity teamId afterSeq)) w := by
  apply query_meets
  intro w choice w' r performed
  cases choice with
  | returned =>
    cases performed
    refine ⟨rfl, fun entries isOk => ?_⟩
    unfold queried at isOk
    split at isOk
    · next read =>
      cases isOk
      exact community_of_plain read
    · cases isOk
  | fails e =>
    cases performed
    exact ⟨rfl, fun _ isOk => by cases isOk⟩
  | _ => cases performed

theorem getLogEntries_meets (inv : NseInv config w) (teamId : TeamId) (afterSeq since : JsValue)
    (user : TokenPayload) :
    MeetsNse config t (fun _ r => OfTeam user r) (getLogEntries teamId afterSeq since user) w := by
  have refused : ∀ e, OfTeam user (.error e) := fun e _ isOk => by cases isOk
  unfold getLogEntries
  split
  · exact refused _
  · next own =>
    have isTeam := JsValue.eq_of_strictEquals (Bool.eq_true_of_not_eq_false own)
    refine meets_ofExcept_bind (fun afterSeqNum _ => ?_) fun e _ => refused e
    refine meets_ofExcept_bind (fun sinceMs _ => ?_) fun e _ => refused e
    refine meets_bind inv (resolveAfterSeq_meets teamId afterSeqNum sinceMs) ?_
      fun _ e _ _ _ => refused e
    intro w₁ resolvedAfterSeq inv₁ _ _
    refine meets_bind inv₁ (getLogEntriesForCommunity_meets teamId resolvedAfterSeq) ?_
      fun _ e _ _ _ => refused e
    rintro w₂ entries _ _ ofTeam _ ⟨⟩ entry mem
    obtain ⟨e, isEntry, rfl⟩ := List.mem_map.mp mem
    rw [isTeam, ← ofTeam entries rfl e isEntry]
    rfl

/-! ## Runs -/

theorem meets_discard {α : Type} {m : NseM Blob α} (inv : NseInv config w)
    (meets : MeetsNse config t (fun _ _ => True) m w) :
    MeetsNse config t (fun _ _ => True) (discard m) w :=
  meets_bind inv meets (fun _ _ _ _ _ => trivial) fun _ _ _ _ _ => trivial

/-- The challenge that a request issues has an id that no challenge had before. -/
def NseCall.Fresh (w : NseWorld Blob) : NseCall → Prop
  | .challenge _ draw => ∀ issued ∈ w.issued, issued.1 ≠ toHex draw.idBytes
  | _ => True

/-- Every request is handled within the invariant. -/
theorem nseCall_meets (inv : NseInv config w) (call : NseCall) (fresh : call.Fresh w) :
    Finishes (nseDiscipline config) performNse t (call.program config t) w := by
  cases call with
  | challenge body draw =>
    refine meets_ofExcept_bind (fun deviceId _ => ?_) fun _ _ => trivial
    refine meets_ofExcept_bind (fun teamId _ => ?_) fun _ _ => trivial
    exact meets_discard inv (issueChallenge_meets inv deviceId teamId draw fresh)
  | token body now =>
    refine meets_ofExcept_bind (fun challengeId _ => ?_) fun _ _ => trivial
    refine meets_ofExcept_bind (fun deviceId _ => ?_) fun _ _ => trivial
    refine meets_ofExcept_bind (fun proof _ => ?_) fun _ _ => trivial
    exact meets_discard inv (verifyAndIssueToken_meets inv challengeId deviceId proof now)
  | logs authorization teamId afterSeq since =>
    refine meets_bind inv (canActivate_meets inv authorization) ?_ fun _ _ _ _ _ => trivial
    intro w₁ user inv₁ _ bears
    refine meets_bind inv₁ (getLogEntries_meets inv₁ teamId afterSeq since user) ?_
      fun _ _ _ _ _ => trivial
    intro w₂ response inv₂ grown₂ ofTeam
    obtain ⟨token, mem, presented, rfl⟩ := bears user rfl
    have allowed : LogRead.Allowed w₂ ⟨authorization, response.entries⟩ :=
      ⟨token, grown₂.tokens token mem, presented, ofTeam response rfl⟩
    obtain ⟨inv₃, grown₃⟩ := inv₂.recordRead allowed
    exact meets_modify inv₃ (acts_nse grown₃ (fun _ _ => rfl) fun _ _ => rfl) trivial

instance (w : NseWorld Blob) : (call : NseCall) → Decidable (call.Fresh w)
  | .challenge _ draw =>
    inferInstanceAs (Decidable (∀ issued ∈ w.issued, issued.1 ≠ toHex draw.idBytes))
  | .token _ _ => .isTrue trivial
  | .logs _ _ _ _ => .isTrue trivial

/-- The random id of a challenge that is issued was not drawn before. -/
def FreshId (m : NseState Blob) : NseMove Blob → Prop
  | .start _ call => call.Fresh m.world
  | _ => True

instance (m : NseState Blob) : (move : NseMove Blob) → Decidable (FreshId m move)
  | .start _ call => inferInstanceAs (Decidable (call.Fresh m.world))
  | .perform _ _ => .isTrue trivial
  | .resume _ => .isTrue trivial
  | .outside _ => .isTrue trivial

/-- The step lemma. -/
theorem safe_nseStep {lfa : Lfa Blob} {m m' : NseState Blob} {move : NseMove Blob}
    (safe : Safe (nseDiscipline config) performNse m) (fresh : FreshId m move)
    (taken : nseStep config lfa m move = some m') :
    Safe (nseDiscipline config) performNse m' := by
  have condition : ∀ t call, move = .start t call → call.Fresh m.world := by
    rintro t call rfl
    exact fresh
  refine (safe_step (S := fun w _ call => call.Fresh w) ?_ ?_ safe condition taken).1
  · exact fun t call w inv _ fresh => nseCall_meets inv call fresh
  · intro w event w' inv moved
    cases event with
    | manager action =>
      have stepped : (step lfa w.manager action).map w.moveManager = some w' := by
        cases action <;> first | exact moved | cases moved
      obtain ⟨manager, isStep, rfl⟩ := Option.map_eq_some_iff.mp stepped
      obtain ⟨inv', grown⟩ := inv.managerStep isStep
      exact ⟨inv', grown, fun _ => ⟨rfl, rfl⟩⟩
    | sodiumReady =>
      cases moved
      obtain ⟨inv', grown⟩ := inv.elsewhere w.db true
      exact ⟨inv', grown, fun _ => ⟨rfl, rfl⟩⟩
    | cleanup now =>
      cases moved
      obtain ⟨inv', grown⟩ := inv.evict now
      exact ⟨inv', grown, fun _ => ⟨rfl, rfl⟩⟩
    | database db =>
      cases moved
      obtain ⟨inv', grown⟩ := inv.elsewhere db w.sodiumReady
      exact ⟨inv', grown, fun _ => ⟨rfl, rfl⟩⟩

theorem safe_fresh_nse (stored : TeamId → Option Blob) (db : Database) :
    Safe (nseDiscipline config) performNse (.fresh stored db : NseState Blob) := by
  refine safe_start ?_ fun _ => trivial
  exact
    { wired := .start stored
      ids := List.nodup_nil
      exclusive := Exclusive.start.drop fun i there => absurd rfl there
      openIssued := fun _ _ found => by cases found
      heldIssued := fun _ _ holds => by cases holds
      fetched := fun _ _ _ isTask => by cases isTask
      asked := fun _ => le_rfl
      earned := fun _ mem => absurd mem List.not_mem_nil
      reads := fun _ mem => absurd mem List.not_mem_nil }

end

/-- **The challenge protocol of the notification extension**: in every state of every run, of any
requests in any order with an await of any other between two steps of one, no challenge has two tokens,
every token comes from its challenge, and a log is read only with a token for its team. -/
theorem challenges_protect {Blob : Type} (config : NseConfig) (lfa : Lfa Blob)
    (stored : TeamId → Option Blob) (db : Database) (moves : List (NseMove Blob))
    (fresh : Along (nseStep config lfa) FreshId (.fresh stored db) moves) :
    Throughout (nseStep config lfa) (fun m => ChallengesProtect config m.world)
      (.fresh stored db) moves :=
  throughout_of_along (I := Safe (nseDiscipline config) performNse)
    (fun _ _ _ safe fresh taken => safe_nseStep safe fresh taken)
    (fun _ safe => safe.inv.protects) (safe_fresh_nse stored db) fresh

/-! ## A device that reads the log -/

/-- One device is registered, and a message is signed by the key before it. -/
def deviceConfig : NseConfig where
  deviceWasRemoved := fun _ _ => false
  hasDevice := fun _ deviceId => deviceId.strictEquals (.string "device")
  device := fun _ _ => .ok "2"
  pack := fun _ => [7]
  crypto_sign_verify_detached := fun signature message key => .ok (signature = key ++ message)

def deviceLfa : Lfa Team := .plain fun _ => []

/-- The log of the team has one entry. -/
def deviceDatabase : Database where
  logEntrySync :=
    { rows := [⟨"cid", "team", none, [], 0, ⟨1, by decide⟩, 0⟩]
      log_entry_sync_pkey := List.nodup_singleton _
      entries_by_syncSeq_idx := List.nodup_singleton _ }
  logEntrySyncCounter := fun _ => none

/-- The team is loaded, a challenge is issued and answered, and the log is read with the token. -/
def deviceMoves : List (NseMove Team) :=
  [.outside .sodiumReady, .outside (.manager (.get 0 (.reader "team") false)),
    .outside (.manager (.communityRead 0 true)), .outside (.manager (.keysRetrieved 0 true)),
    .start 0 (.challenge (.object [("deviceId", .string "device"), ("teamId", .string "team")])
      ⟨[171], [1], 0, 0, 0⟩),
    .start 1 (.token (.object [("challengeId", .string "ab"), ("deviceId", .string "device"),
      ("proof", .object [("signature", .string "5Y"), ("publicKey", .string "2")])]) 30000),
    .perform 1 .returned, .resume 1, .perform 1 (.signed "jwt"), .resume 1,
    .start 2 (.logs (some "Bearer jwt") "team" (.string "0") (.string "")),
    .perform 2 (.verified 0), .resume 2, .perform 2 .returned, .resume 2]

def deviceStored : TeamId → Option Team := fun _ => some { id := "team", links := ∅ }

theorem challenges_protect_device :
    (run (nseStep deviceConfig deviceLfa) (.fresh deviceStored deviceDatabase) deviceMoves).map
        (fun m => (m.world.tokens.length, m.world.reads.map (·.entries.length))) = some (1, [1]) ∧
      Throughout (nseStep deviceConfig deviceLfa) (fun m => ChallengesProtect deviceConfig m.world)
        (.fresh deviceStored deviceDatabase) deviceMoves :=
  ⟨by decide, challenges_protect deviceConfig deviceLfa deviceStored deviceDatabase deviceMoves
    (by decide)⟩

end QuietStorage.Nse
