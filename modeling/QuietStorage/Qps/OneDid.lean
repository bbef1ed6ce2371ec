import QuietStorage.Qps.SigningKey

/-!
# Qps.OneDid — one identity for all processes

Each process that has started signs with the key that is in the secrets manager, however the starts of
several processes interleave: a process that generates a key has no identity unless its key was the one
that was stored. So there is one DID in every run (`one_did`), and a token that was built in any
process is accepted in any other as what it was built for, and no other token is
(`ucans_interchangeable`).

This holds where `CreateSecret` stores under an absent name only. A local server keeps its secrets in
Redis, where a second `set` overwrites.
-/

set_option autoImplicit false

namespace QuietStorage.Qps

open Lib Encryption Websocket

section
variable {Keypair : Type} (config : SigningConfig Keypair)

/-! ## The invariant -/

/-- The DID of the key in a secret. -/
def didOf : Secret → Option String
  | .string text => (config.library.fromSecretKey text).toOption.map config.library.did
  | .binary _ => none

/-- The signing key that is stored has the DID. -/
def Signed (keys : Keys KeyAnswer) (did : String) : Prop :=
  ∃ secret, keys.secrets (getSecretName config) = some secret ∧ didOf config secret = some did

/-- The token was built by one with the DID, for itself. -/
structure BuiltUcan.ByQps (built : BuiltUcan) (keys : Keys KeyAnswer) : Prop where
  signed : Signed config keys built.issuer
  audience : built.audience = built.issuer
  token : ∃ n, built.token = config.library.build (built.fields.payload built.issuer built.audience) n

/-- What is known of a validation: the process had no DID, the library has not accepted the token, the
token could not be read, or the result is that of the checks on what was read; and then one that names
QPS was built. -/
def ValidatedUcan.Known (validated : ValidatedUcan) (w : SigningWorld Keypair) : Prop :=
  validated.result = notInitialized ∨ validated.result = invalidSignature ∨
    (∃ e, config.library.parse validated.token = .error e ∧ validated.result.valid = false) ∨
    ∃ did parsed, Signed config w.keys did ∧ config.library.parse validated.token = .ok parsed ∧
      validated.result = checkPayload did parsed ∧
      (parsed.iss = did → ∃ built ∈ w.built, built.token = validated.token)

/-- **The invariant**: a process with a DID has a key with the DID of the stored key, and every token
was built with such a key. -/
structure SigningInv (w : SigningWorld Keypair) : Prop where
  keys : OneStoredKey config.keys (keyRules config.keys) w.keys
  did : ∀ p did, w.qpsDid p = some did → Signed config w.keys did ∧
    ∃ keypair, w.keypair p = some keypair ∧ config.library.did keypair = did
  started : ∀ p, w.started p = false → w.qpsDid p = none
  held : ∀ p keypair, w.keypair p = some keypair → keypair ∈ w.held
  built : ∀ built ∈ w.built, built.ByQps config w.keys
  validated : ∀ validated ∈ w.validated, validated.Known config w

/-- What stays: secrets, DIDs, and the record. -/
structure SigningWorld.Grows (w w' : SigningWorld Keypair) : Prop where
  keys : w.keys.Grows w'.keys
  did : ∀ p did, w.qpsDid p = some did → w'.qpsDid p = some did
  held : ∀ keypair ∈ w.held, keypair ∈ w'.held
  built : ∀ built ∈ w.built, built ∈ w'.built

/-- What is the task's: the process that it starts. -/
structure SameProcess (p : Process) (w w' : SigningWorld Keypair) : Prop where
  started : w'.started p = w.started p
  keypair : w'.keypair p = w.keypair p
  qpsDid : w'.qpsDid p = w.qpsDid p

theorem SigningWorld.Grows.refl (w : SigningWorld Keypair) : w.Grows w :=
  ⟨.refl _, fun _ _ h => h, fun _ h => h, fun _ h => h⟩

theorem SigningWorld.Grows.trans {w m w' : SigningWorld Keypair} (first : w.Grows m)
    (second : m.Grows w') : w.Grows w' where
  keys := first.keys.trans second.keys
  did := fun p did has => second.did p did (first.did p did has)
  held := fun keypair mem => second.held keypair (first.held keypair mem)
  built := fun built mem => second.built built (first.built built mem)

theorem SameProcess.refl (p : Process) (w : SigningWorld Keypair) : SameProcess p w w :=
  ⟨rfl, rfl, rfl⟩

theorem SameProcess.trans {p : Process} {w m w' : SigningWorld Keypair} (first : SameProcess p w m)
    (second : SameProcess p m w') : SameProcess p w w' where
  started := second.started.trans first.started
  keypair := second.keypair.trans first.keypair
  qpsDid := second.qpsDid.trans first.qpsDid

def signingDiscipline : Discipline (SigningWorld Keypair) where
  Inv := SigningInv config
  Grows := SigningWorld.Grows
  Keeps := SameProcess
  Idle := fun _ _ => True
  refl := .refl
  trans := .trans
  keeps_refl := .refl
  keeps_trans := .trans
  idle_keeps := fun _ _ => trivial

/-- The rules for the programs of this machine. -/
abbrev MeetsSigning {α : Type} (t : Nat) (Q : SigningWorld Keypair → Except Thrown α → Prop) :
    SigningM Keypair α → SigningWorld Keypair → Prop :=
  Meets (signingDiscipline config) t (performSigning config) Q

variable {config} {w w' : SigningWorld Keypair} {t : Nat}

theorem Signed.mono {keys keys' : Keys KeyAnswer} {did : String} (signed : Signed config keys did)
    (grown : keys.Grows keys') : Signed config keys' did := by
  obtain ⟨secret, stored, isDid⟩ := signed
  exact ⟨secret, (grown.secrets _ _ stored).1, isDid⟩

/-- One key is stored, so one DID signs. -/
theorem Signed.unique {keys : Keys KeyAnswer} {did did' : String} (signed : Signed config keys did)
    (signed' : Signed config keys did') : did = did' := by
  obtain ⟨secret, stored, isDid⟩ := signed
  obtain ⟨secret', stored', isDid'⟩ := signed'
  rw [stored] at stored'
  cases stored'
  exact Option.some.inj (isDid.symm.trans isDid')

theorem ValidatedUcan.Known.mono {validated : ValidatedUcan} (known : validated.Known config w)
    (grown : w.Grows w') : validated.Known config w' := by
  refine known.imp id (Or.imp id (Or.imp id ?_))
  rintro ⟨did, parsed, signed, isParsed, isResult, genuine⟩
  refine ⟨did, parsed, signed.mono grown.keys, isParsed, isResult, fun own => ?_⟩
  obtain ⟨built, mem, isToken⟩ := genuine own
  exact ⟨built, grown.built built mem, isToken⟩

/-- The invariant, when nothing but the secrets and the record may grow. -/
theorem SigningInv.grow (inv : SigningInv config w) (grown : w.Grows w')
    (keys : OneStoredKey config.keys (keyRules config.keys) w'.keys)
    (started : w'.started = w.started) (keypair : w'.keypair = w.keypair)
    (qpsDid : w'.qpsDid = w.qpsDid)
    (built : ∀ built ∈ w'.built, built ∈ w.built ∨ built.ByQps config w'.keys)
    (validated : ∀ validated ∈ w'.validated,
      validated ∈ w.validated ∨ validated.Known config w') : SigningInv config w' where
  keys := keys
  did := by
    intro p did has
    rw [qpsDid] at has
    rw [keypair]
    obtain ⟨signed, own⟩ := inv.did p did has
    exact ⟨signed.mono grown.keys, own⟩
  started := by
    rw [started, qpsDid]
    exact inv.started
  held := by
    rw [keypair]
    exact fun p own has => grown.held own (inv.held p own has)
  built := by
    intro b mem
    rcases built b mem with old | byQps
    · have byQps := inv.built b old
      exact ⟨byQps.signed.mono grown.keys, byQps.audience, byQps.token⟩
    · exact byQps
  validated := fun v mem => (validated v mem).elim (fun old => (inv.validated v old).mono grown) id

/-! ## On the secrets manager -/

theorem setKeys_grows {keys : Keys KeyAnswer} (grown : w.keys.Grows keys) : w.Grows (w.setKeys keys) :=
  ⟨grown, fun _ _ h => h, fun _ h => h, fun _ h => h⟩

/-- The calls of the key services change nothing but the secrets manager. -/
theorem lifts_keys : (keyDiscipline config.keys (keyRules config.keys)).Lifts
    (signingDiscipline config) SigningWorld.keys SigningWorld.setKeys where
  part_put := fun _ _ => rfl
  inv := fun _ inv => inv.keys
  grows := fun _ _ grown => grown.keys
  keeps := fun _ _ _ _ => trivial
  inv_put := fun _ _ inv keys grown =>
    inv.grow (setKeys_grows grown) keys rfl rfl rfl (fun _ mem => .inl mem) fun _ mem => .inl mem
  acts_put := fun _ _ _ _ acts => ⟨setKeys_grows acts.grows, fun _ _ => ⟨rfl, rfl, rfl⟩⟩
  keeps_put := fun _ _ _ => ⟨rfl, rfl, rfl⟩

theorem serves_keys : ServesPart (signingDiscipline config) t (performSigning config)
    (@performSecret KeyAnswer) SigningWorld.keys SigningWorld.setKeys
    fun c => Async.send (SigningCommand.secret c) := by
  intro c w Q served
  refine meets_send fun w₁ rely inv choice w₂ r performed => ?_
  cases choice with
  | secret choice =>
    obtain ⟨⟨keys, answer⟩, answered, isPair⟩ := Option.map_eq_some_iff.mp performed
    cases isPair
    exact served w₁ rely inv choice keys answer answered
  | _ => cases performed

/-- A function of the services of `Encryption` ends here as it ends there. -/
theorem onKeys_meets {α : Type} {m : KeyM KeyAnswer α} {Q : Keys KeyAnswer → Except Thrown α → Prop}
    (inv : SigningInv config w)
    (meets : Meets (keyDiscipline config.keys (keyRules config.keys)) t performSecret Q m w.keys) :
    MeetsSigning config t
      (fun w' r => Q w'.keys r ∧ (signingDiscipline config).Rely t w w') (onKeys m) w :=
  meets_interpret_of_part lifts_keys serves_keys inv meets

/-! ## The start of a process -/

/-- A process that has no DID takes a key. -/
theorem SigningInv.setKeypair (inv : SigningInv config w) (keypair : Keypair)
    (noDid : w.qpsDid t = none) :
    SigningInv config (w.setKeypair t keypair) ∧
      (signingDiscipline config).Acts t w (w.setKeypair t keypair) := by
  have grown : w.Grows (w.setKeypair t keypair) :=
    ⟨.refl _, fun _ _ h => h, fun _ mem => List.mem_append_left _ mem, fun _ h => h⟩
  refine ⟨⟨inv.keys, ?_, inv.started, ?_, inv.built, ?_⟩, grown, ?_⟩
  · intro p did has
    have other : p ≠ t := by
      rintro rfl
      exact Option.some_ne_none _ (has.symm.trans noDid)
    obtain ⟨signed, own, isOwn, isDid⟩ := inv.did p did has
    exact ⟨signed, own, (Function.update_of_ne other ..).trans isOwn, isDid⟩
  · intro p own has
    by_cases same : p = t
    · subst same
      cases (Function.update_self ..).symm.trans has
      exact List.mem_append_right _ (List.mem_singleton_self _)
    · exact List.mem_append_left _
        (inv.held p own ((Function.update_of_ne same ..).symm.trans has))
  · exact fun v mem => (inv.validated v mem).mono grown
  · exact fun p other => ⟨rfl, Function.update_of_ne other .., rfl⟩

/-- A process takes the DID of its key, when that is the one that is stored. -/
theorem SigningInv.setQpsDid (inv : SigningInv config w) {keypair : Keypair}
    (has : w.keypair t = some keypair) (started : w.started t = true) (noDid : w.qpsDid t = none)
    (signed : Signed config w.keys (config.library.did keypair)) :
    SigningInv config (w.setQpsDid t (config.library.did keypair)) ∧
      (signingDiscipline config).Acts t w (w.setQpsDid t (config.library.did keypair)) := by
  have grown : w.Grows (w.setQpsDid t (config.library.did keypair)) := by
    refine ⟨.refl _, fun p did hasDid => ?_, fun _ h => h, fun _ h => h⟩
    have other : p ≠ t := by
      rintro rfl
      exact Option.some_ne_none _ (hasDid.symm.trans noDid)
    exact (Function.update_of_ne other ..).trans hasDid
  refine ⟨⟨inv.keys, ?_, ?_, inv.held, inv.built, ?_⟩, grown, ?_⟩
  · intro p did hasDid
    by_cases same : p = t
    · subst same
      cases (Function.update_self ..).symm.trans hasDid
      exact ⟨signed, keypair, has, rfl⟩
    · exact inv.did p did ((Function.update_of_ne same ..).symm.trans hasDid)
  · intro p notStarted
    have other : p ≠ t := by
      rintro rfl
      exact Bool.false_ne_true (notStarted.symm.trans started)
    exact (Function.update_of_ne other ..).trans (inv.started p notStarted)
  · exact fun v mem => (inv.validated v mem).mono grown
  · exact fun p other => ⟨rfl, rfl, Function.update_of_ne other ..⟩

/-- The process that task `t` is starting has no DID yet. -/
structure Starting (w : SigningWorld Keypair) (t : Process) : Prop where
  started : w.started t = true
  noDid : w.qpsDid t = none

theorem Starting.mono (starting : Starting w t) (same : SameProcess t w w') : Starting w' t :=
  ⟨same.started.trans starting.started, same.qpsDid.trans starting.noDid⟩

/-- The process has begun to start. -/
theorem SigningInv.start (inv : SigningInv config w) (fresh : w.started t = false) :
    SigningInv config (w.start t) ∧ (signingDiscipline config).Acts t w (w.start t) ∧
      Starting (w.start t) t := by
  have grown : w.Grows (w.start t) := ⟨.refl _, fun _ _ h => h, fun _ h => h, fun _ h => h⟩
  refine ⟨⟨inv.keys, inv.did, ?_, inv.held, inv.built, ?_⟩, ⟨grown, ?_⟩, ?_⟩
  · intro p notStarted
    have other : p ≠ t := by
      rintro rfl
      exact Bool.false_ne_true (notStarted.symm.trans (Function.update_self ..))
    exact inv.started p ((Function.update_of_ne other ..).symm.trans notStarted)
  · exact fun v mem => (inv.validated v mem).mono grown
  · exact fun p other => ⟨Function.update_of_ne other .., rfl, rfl⟩
  · exact ⟨Function.update_self .., inv.started t fresh⟩

/-- The process has a key, and it is the one that is stored. -/
def TakesStored (config : SigningConfig Keypair) (w' : SigningWorld Keypair) (t : Process)
    (r : Except Thrown Unit) : Prop :=
  Starting w' t ∧ (r = .ok () → ∃ keypair, w'.keypair t = some keypair ∧
    Signed config w'.keys (config.library.did keypair))

/-- A command that changes nothing but its own answer. -/
theorem answer_meets (c : SigningCommand Keypair) {P : Except Thrown c.Answer → Prop}
    (unchanged : ∀ w₁ choice w₂ r, performSigning config w₁ c choice = some (w₂, r) →
      w₂ = w₁ ∧ P r) :
    MeetsSigning config t (fun w' r => (signingDiscipline config).Rely t w w' ∧ P r)
      (Async.send c) w := by
  refine meets_send fun w₁ rely inv choice w₂ r performed => ?_
  obtain ⟨rfl, answered⟩ := unchanged w₁ choice w₂ r performed
  exact ⟨inv, .refl t w₂, fun w₃ rely₃ _ => ⟨rely.trans rely₃, answered⟩⟩

theorem create_unchanged {w₁ w₂ : SigningWorld Keypair} {choice : SigningChoice Keypair}
    {r : Except Thrown Keypair} (performed : performSigning config w₁ .create choice = some (w₂, r)) :
    w₂ = w₁ ∧ True := by
  cases choice with
  | created keypair => cases performed; exact ⟨rfl, trivial⟩
  | fails e => cases performed; exact ⟨rfl, trivial⟩
  | _ => cases performed

theorem exportKey_unchanged {keypair : Keypair} {w₁ w₂ : SigningWorld Keypair}
    {choice : SigningChoice Keypair} {r : Except Thrown String}
    (performed : performSigning config w₁ (.exportKey keypair) choice = some (w₂, r)) :
    w₂ = w₁ ∧ ∀ text, r = .ok text → text = config.library.exportKey keypair := by
  cases choice with
  | succeeds =>
    cases performed
    refine ⟨rfl, ?_⟩
    rintro _ ⟨⟩
    rfl
  | fails e =>
    cases performed
    refine ⟨rfl, ?_⟩
    rintro _ ⟨⟩
  | _ => cases performed

/-- **A process takes the key that is stored**, or stores the one it takes. -/
theorem takeKeypair_meets (remote : config.keys.env.isLocal = false)
    (lawful : config.library.Lawful) (inv : SigningInv config w) (starting : Starting w t) :
    MeetsSigning config t (fun w' r => TakesStored config w' t r) (takeKeypair config t) w := by
  have failed : ∀ {w' : SigningWorld Keypair} {e : Thrown}, Starting w' t →
      TakesStored config w' t (.error e) :=
    fun starting => ⟨starting, fun isOk => by cases isOk⟩
  have stores : ∀ {w₁ : SigningWorld Keypair}, SigningInv config w₁ → Starting w₁ t →
      MeetsSigning config t (fun w' r => TakesStored config w' t r)
        (do
          let keypair ← Async.send SigningCommand.create
          Async.modify (·.setKeypair t keypair)
          let secretKeyBase64 ← Async.send (SigningCommand.exportKey keypair)
          onKeys (AWSSecretsService.create config.keys.env ⟨t, 0⟩ (getSecretName config)
            (.string secretKeyBase64))) w₁ := by
    intro w₁ inv₁ starting₁
    refine meets_bind inv₁ (answer_meets .create fun _ _ _ _ => create_unchanged) ?_
      fun w' e _ _ held => failed (starting₁.mono held.1.keeps)
    rintro w₂ keypair inv₂ _ ⟨rely₂, _⟩
    have starting₂ := starting₁.mono rely₂.keeps
    obtain ⟨inv₃, acts⟩ := inv₂.setKeypair keypair starting₂.noDid
    have has : (w₂.setKeypair t keypair).keypair t = some keypair := Function.update_self ..
    have starting₃ : Starting (w₂.setKeypair t keypair) t := ⟨starting₂.started, starting₂.noDid⟩
    refine meets_modify_bind inv₃ acts ?_
    refine meets_bind inv₃ (answer_meets (.exportKey keypair) fun _ _ _ _ => exportKey_unchanged) ?_
      fun w' e _ _ held => failed (starting₃.mono held.1.keeps)
    rintro w₄ text inv₄ _ ⟨rely₄, isText⟩
    have isText := isText text rfl
    subst isText
    refine (onKeys_meets inv₄ (Encryption.create_meets remote inv₄.keys trivial _)).imp inv₄ ?_
    rintro w₅ r _ _ ⟨created, rely₅⟩
    have same := rely₄.keeps.trans rely₅.keeps
    refine ⟨starting₃.mono same, fun isOk => ⟨keypair, same.keypair.trans has, ?_⟩⟩
    refine ⟨_, (created isOk).2.1, ?_⟩
    simp only [didOf, lawful.keypair, Except.toOption, Option.map_some]
  unfold takeKeypair
  refine meets_bind inv (onKeys_meets inv (Encryption.get_meets remote inv.keys _)) ?_
    fun w' e _ _ held => failed (starting.mono held.2.keeps)
  rintro w₁ existingSecret inv₁ _ ⟨found, rely₁⟩
  have starting₁ := starting.mono rely₁.keeps
  split
  · next text =>
    refine meets_ofExcept_bind (fun keypair isKeypair => ?_) fun e _ => failed starting₁
    obtain ⟨inv₂, acts⟩ := inv₁.setKeypair keypair starting₁.noDid
    refine meets_modify inv₂ acts ⟨⟨starting₁.started, starting₁.noDid⟩, fun _ => ?_⟩
    refine ⟨keypair, Function.update_self .., _, found, ?_⟩
    simp only [didOf, isKeypair, Except.toOption, Option.map_some]
  · exact stores inv₁ starting₁

/-- A process that has started has the DID of the stored key. -/
theorem onModuleInit_meets (remote : config.keys.env.isLocal = false)
    (lawful : config.library.Lawful) (inv : SigningInv config w) :
    MeetsSigning config t (fun _ _ => True) (SigningCall.program config t .onModuleInit) w := by
  refine meets_get_bind inv ?_
  split
  · trivial
  · next fresh =>
    obtain ⟨inv₁, acts, starting⟩ := inv.start (Bool.eq_false_of_not_eq_true fresh)
    refine meets_modify_bind inv₁ acts ?_
    refine meets_bind inv₁ (takeKeypair_meets remote lawful inv₁ starting) ?_ fun _ _ _ _ _ => trivial
    rintro w₂ _ inv₂ _ ⟨starting₂, taken⟩
    refine meets_get_bind inv₂ ?_
    obtain ⟨keypair, has, signed⟩ := taken rfl
    rw [has]
    obtain ⟨inv₃, acts₃⟩ := inv₂.setQpsDid has starting₂.started starting₂.noDid signed
    exact meets_modify inv₃ acts₃ trivial

/-! ## Requests -/

/-- What the record grows by changes nothing else. -/
theorem recordBuilt_grows (built : BuiltUcan) : w.Grows (w.recordBuilt built) :=
  ⟨.refl _, fun _ _ h => h, fun _ h => h, fun _ mem => List.mem_append_left _ mem⟩

theorem recordValidated_grows (validated : ValidatedUcan) : w.Grows (w.recordValidated validated) :=
  ⟨.refl _, fun _ _ h => h, fun _ h => h, fun _ h => h⟩

/-- A token is built with the key that is stored. -/
theorem build_meets {issuer : Keypair} {fields : UcanFields}
    (signed : Signed config w.keys (config.library.did issuer)) :
    MeetsSigning config t (fun _ _ => True)
      (Async.send (SigningCommand.build issuer (config.library.did issuer) fields)) w := by
  refine meets_send fun w₁ rely inv choice w₂ r performed => ?_
  cases choice with
  | built n =>
    cases performed
    have grown := recordBuilt_grows (w := w₁)
      (builtUcan config issuer (config.library.did issuer) fields n)
    have byQps : (builtUcan config issuer (config.library.did issuer) fields n).ByQps config w₁.keys :=
      ⟨signed.mono rely.grows.keys, rfl, n, rfl⟩
    refine ⟨inv.grow grown inv.keys rfl rfl rfl (fun b mem => ?_) fun _ mem => .inl mem,
      ⟨grown, fun _ _ => ⟨rfl, rfl, rfl⟩⟩, fun _ _ _ => trivial⟩
    rcases List.mem_append.mp mem with old | isIt
    · exact .inl old
    · rw [List.mem_singleton.mp isIt]
      exact .inr byQps
  | fails e =>
    cases performed
    exact ⟨inv, .refl t w₁, fun _ _ _ => trivial⟩
  | _ => cases performed

theorem createUcan_meets_signing (inv : SigningInv config w) (process : Process)
    (fields : UcanFields) :
    MeetsSigning config t (fun _ _ => True) (UcanService.createUcan process fields) w := by
  refine meets_get_bind inv ?_
  split
  · next keypair qpsDid has hasDid =>
    obtain ⟨signed, own, isOwn, isDid⟩ := inv.did process qpsDid hasDid
    cases has.symm.trans isOwn
    subst isDid
    exact build_meets signed
  · trivial

/-- A token that the library accepts in the name of a key that was held was built. -/
def Genuine (config : SigningConfig Keypair) (w w' : SigningWorld Keypair) (token : String) : Prop :=
  ∀ parsed, config.library.parse token = .ok parsed →
    (∃ keypair ∈ w.held, config.library.did keypair = parsed.iss) →
      ∃ built ∈ w'.built, built.token = token

theorem genuine_of_true {token : String} (genuine : w.genuine config.library token = true)
    {parsed : UcanPayload} (isParsed : config.library.parse token = .ok parsed)
    (ofQps : ∃ keypair ∈ w.held, config.library.did keypair = parsed.iss) :
    ∃ built ∈ w.built, built.token = token := by
  have named : (w.held.any fun keypair => config.library.did keypair = parsed.iss) = true := by
    obtain ⟨keypair, mem, isDid⟩ := ofQps
    exact List.any_eq_true.mpr ⟨keypair, mem, decide_eq_true isDid⟩
  simp only [SigningWorld.genuine, isParsed, named, if_true] at genuine
  obtain ⟨built, mem, isToken⟩ := List.any_eq_true.mp genuine
  exact ⟨built, mem, of_decide_eq_true isToken⟩

theorem ucanValidates_meets (inv : SigningInv config w) (token : String) :
    MeetsSigning config t
      (fun w' r => ∃ accepted, r = .ok accepted ∧ (accepted = true → Genuine config w w' token))
      (ucanValidates token) w := by
  have validates : MeetsSigning config t
      (fun w' r => r = .ok () → Genuine config w w' token)
      (Async.send (SigningCommand.validate token)) w := by
    refine meets_send fun w₁ rely inv₁ choice w₂ r performed => ?_
    cases choice with
    | succeeds =>
      dsimp only [performSigning] at performed
      split at performed
      · next genuine =>
        cases performed
        refine ⟨inv₁, .refl t w₁, fun w₃ rely₃ _ _ parsed isParsed ofQps => ?_⟩
        obtain ⟨keypair, mem, isDid⟩ := ofQps
        obtain ⟨built, isBuilt, isToken⟩ :=
          genuine_of_true genuine isParsed ⟨keypair, rely.grows.held keypair mem, isDid⟩
        exact ⟨built, rely₃.grows.built built isBuilt, isToken⟩
      · cases performed
    | fails e =>
      cases performed
      exact ⟨inv₁, .refl t w₁, fun _ _ _ isOk => by cases isOk⟩
    | _ => cases performed
  have body : MeetsSigning config t
      (fun w' r => r = .ok true → Genuine config w w' token)
      (do
        Async.send (SigningCommand.validate token)
        pure true) w :=
    meets_bind inv validates (fun _ _ _ _ held _ => held rfl) fun _ _ _ _ _ isOk => by cases isOk
  refine meets_tryCatch inv body ?_ ?_
  · rintro w' accepted _ _ held
    exact ⟨accepted, rfl, fun isTrue => held (isTrue ▸ rfl)⟩
  · intro w' e _ _ _
    exact ⟨false, rfl, fun isTrue => by cases isTrue⟩

/-- **What `validateUcan` returns is known.** -/
theorem validateUcan_meets_signing (inv : SigningInv config w) (process : Process) (token : String) :
    MeetsSigning config t
      (fun w' r => ∀ result, r = .ok result → (ValidatedUcan.mk token result).Known config w')
      (UcanService.validateUcan config process token) w := by
  refine meets_get_bind inv ?_
  split
  · rintro _ ⟨⟩
    exact .inl rfl
  · next initialized =>
    obtain ⟨did, hasDid⟩ := Option.ne_none_iff_exists'.mp
      (Option.isNone_iff_eq_none.not.mp initialized)
    obtain ⟨signed, keypair, has, isDid⟩ := inv.did process did hasDid
    have body : MeetsSigning config t
        (fun w' r => (∀ result, r = .ok result → (ValidatedUcan.mk token result).Known config w') ∧
          ∀ e, r = .error e → config.library.parse token = .error e)
        (do
          let parsed ← MonadExcept.ofExcept (config.library.parse token)
          let accepted ← ucanValidates token
          if accepted then
            let w ← Async.get
            pure (checkParsed (w.qpsDid process) parsed)
          else pure invalidSignature) w := by
      refine meets_ofExcept_bind (fun parsed isParsed => ?_) ?_
      · refine meets_bind inv (ucanValidates_meets inv token) ?_ ?_
        · rintro w₁ _ inv₁ grown ⟨accepted, ⟨⟩, genuine⟩
          split
          · next isTrue =>
            refine meets_get_bind inv₁ ?_
            rw [grown.did process did hasDid]
            refine ⟨?_, fun _ isError => by cases isError⟩
            rintro _ ⟨⟩
            refine .inr (.inr (.inr ⟨did, parsed, signed.mono grown.keys, isParsed, rfl, ?_⟩))
            intro own
            exact genuine isTrue parsed isParsed
              ⟨keypair, inv.held process keypair has, isDid.trans own.symm⟩
          · refine ⟨?_, fun _ isError => by cases isError⟩
            rintro _ ⟨⟩
            exact .inr (.inl rfl)
        · rintro w₁ e _ _ ⟨accepted, isOk, _⟩
          cases isOk
      · intro e isError
        refine ⟨fun _ isOk => (by cases isOk), ?_⟩
        rintro _ ⟨⟩
        exact isError
    refine meets_tryCatch inv body (fun _ _ _ _ held => held.1) ?_
    rintro w₁ e _ _ ⟨-, isError⟩ _ ⟨⟩
    exact .inr (.inr (.inl ⟨e, isError e rfl, rfl⟩))

/-- Every call keeps the discipline. -/
theorem signingCall_meets (remote : config.keys.env.isLocal = false)
    (keysLawful : config.keys.sodium.Lawful) (lawful : config.library.Lawful)
    (inv : SigningInv config w) (call : SigningCall) :
    Finishes (signingDiscipline config) (performSigning config) t (call.program config t) w := by
  cases call with
  | onModuleInit => exact onModuleInit_meets remote lawful inv
  | createUcan process fields =>
    exact meets_bind inv (createUcan_meets_signing inv process fields) (fun _ _ _ _ _ => trivial)
      fun _ _ _ _ _ => trivial
  | validateUcan process token =>
    refine meets_bind inv (validateUcan_meets_signing inv process token) ?_ fun _ _ _ _ _ => trivial
    intro w' result inv' _ known
    have grown := recordValidated_grows (w := w') ⟨token, result⟩
    refine meets_modify ?_ ⟨grown, fun _ _ => ⟨rfl, rfl, rfl⟩⟩ trivial
    refine inv'.grow grown inv'.keys rfl rfl rfl (fun _ mem => .inl mem) fun v mem => ?_
    rcases List.mem_append.mp mem with old | isIt
    · exact .inl old
    · rw [List.mem_singleton.mp isIt]
      exact .inr ((known result rfl).mono grown)
  | keys call =>
    exact (onKeys_meets inv (keyCall_meets remote keysLawful inv.keys call)).imp inv
      fun _ _ _ _ _ => trivial

/-! ## Runs -/

/-- The tokens of the record were built with the key that the secret holds. -/
def EarlierBuilt (config : SigningConfig Keypair) (secrets : String → Option Secret)
    (built : List BuiltUcan) : Prop :=
  ∀ b ∈ built, ∀ random, b.ByQps config { secrets, random }

/-- Nothing is under way, and what was built before was built with the stored key. -/
theorem safe_signing_fresh {secrets : String → Option Secret} (random : Nat → Nat → Bytes)
    {built : List BuiltUcan} (earlier : EarlierBuilt config secrets built) :
    Safe (signingDiscipline config) (performSigning config)
      (SigningState.fresh secrets random built) := by
  refine safe_start ⟨(safe_fresh secrets random).inv, ?_, fun _ _ => rfl, ?_, ?_, ?_⟩
    fun _ => trivial
  · intro p did has
    cases has
  · intro p keypair has
    cases has
  · exact fun b mem => earlier b mem random
  · intro v mem
    cases mem

theorem safe_signingStep (remote : config.keys.env.isLocal = false)
    (keysLawful : config.keys.sodium.Lawful) (lawful : config.library.Lawful)
    {m m' : SigningState Keypair} {move : SigningMove Keypair}
    (safe : Safe (signingDiscipline config) (performSigning config) m)
    (taken : signingStep config m move = some m') :
    Safe (signingDiscipline config) (performSigning config) m' ∧ m.world.Grows m'.world :=
  safe_step (S := fun _ _ _ => True)
    (fun _ call _ inv _ _ => signingCall_meets remote keysLawful lawful inv call)
    (fun _ event _ _ _ => event.elim) safe (fun _ _ _ => trivial) taken

/-- All processes have the DID, and all tokens are by it and for it. -/
structure OneDid (did : String) (w : SigningWorld Keypair) : Prop where
  qpsDid : ∀ p did', w.qpsDid p = some did' → did' = did
  built : ∀ b ∈ w.built, b.issuer = did ∧ b.audience = did

theorem SigningInv.oneDid (inv : SigningInv config w) {secret : Secret}
    (stored : ∀ other, w.keys.secrets (getSecretName config) = some other → other = secret) :
    OneDid ((didOf config secret).getD "") w := by
  have unique : ∀ did, Signed config w.keys did → did = (didOf config secret).getD "" := by
    rintro did ⟨other, isStored, isDid⟩
    rw [← stored other isStored, isDid]
    rfl
  refine ⟨fun p did has => unique did (inv.did p did has).1, fun b mem => ?_⟩
  have byQps := inv.built b mem
  exact ⟨unique _ byQps.signed, byQps.audience.trans (unique _ byQps.signed)⟩

/-- **One identity.** In every run of any number of processes that start and serve at any moments, on
a secrets manager that they share and that may fail, there is one DID: no process ever has another, and
every token was built by it and for it. -/
theorem one_did (config : SigningConfig Keypair) (remote : config.keys.env.isLocal = false)
    (keysLawful : config.keys.sodium.Lawful) (lawful : config.library.Lawful)
    (secrets : String → Option Secret) (random : Nat → Nat → Bytes) (built : List BuiltUcan)
    (earlier : EarlierBuilt config secrets built) (moves : List (SigningMove Keypair)) :
    ∃ did, Throughout (signingStep config) (fun m => OneDid did m.world)
      (SigningState.fresh secrets random built) moves := by
  have found : ∃ secret, Throughout (signingStep config)
      (fun m => Safe (signingDiscipline config) (performSigning config) m ∧
        ∀ other, m.world.keys.secrets (getSecretName config) = some other → other = secret)
      (SigningState.fresh secrets random built) moves :=
    throughout_found (Secret.string "")
      (fun _ _ _ safe taken => (safe_signingStep remote keysLawful lawful safe taken).1)
      (fun _ _ _ secret safe taken stored =>
        ((safe_signingStep remote keysLawful lawful safe taken).2.keys.secrets _ secret stored).1)
      (safe_signing_fresh random earlier)
  obtain ⟨secret, found⟩ := found
  exact ⟨_, found.imp fun m held => held.1.inv.oneDid held.2⟩

end

/-- The text of a value that is one. -/
def textOf : JsValue → List Char
  | .string s => s.toList
  | _ => []

/-- A library that signs nothing: a key is its text, and a token says what it was built of. -/
def plainLibrary : UcanLibrary String where
  fromSecretKey := .ok
  exportKey := id
  did := id
  build := fun payload _ =>
    match payload.att, payload.fct with
    | [cap], some [facts] =>
      String.ofList (marked payload.iss.toList (marked payload.aud.toList
        (marked (textOf cap.resource.hierPart) (marked (textOf facts.bundleId)
          (marked (textOf facts.platform) (textOf facts.teamId))))))
    | _, _ => ""
  parse := fun token =>
    let read := do
      let (iss, rest) ← unmarked token.toList
      let (aud, rest) ← unmarked rest
      let (deviceToken, rest) ← unmarked rest
      let (bundleId, rest) ← unmarked rest
      let (platform, teamId) ← unmarked rest
      let fields : UcanFields :=
        { deviceToken := String.ofList deviceToken, bundleId := String.ofList bundleId,
          platform := String.ofList platform, teamId := String.ofList teamId }
      pure (fields.payload (String.ofList iss) (String.ofList aud))
    match read with
    | some payload => .ok payload
    | none => .error (.error "Can't parse UCAN")

theorem plainLibrary_lawful : plainLibrary.Lawful where
  keypair := fun _ => rfl
  ucan := by
    intro fields issuer audience n
    simp [plainLibrary, UcanFields.payload, qpsPayload, textOf, unmarked_marked]

/-- A server in production. -/
def plainSigning : SigningConfig String := ⟨⟨.Production, plainSodium⟩, plainLibrary⟩

/-- Two processes start at once and both find no key. One stores its key first; a third process takes
it, and accepts what the first one has built. -/
def threeProcesses : List (SigningMove String) :=
  let notFound : SigningChoice String :=
    .secret (.fails (.aws { name := some "ResourceNotFoundException" }))
  let exists_ : SigningChoice String :=
    .secret (.fails (.aws { name := some "ResourceExistsException" }))
  let fields : UcanFields := ⟨"token", "bundle", "ios", "team"⟩
  [.start 0 .onModuleInit, .start 1 .onModuleInit, .perform 0 notFound, .perform 1 notFound,
    .resume 0, .resume 1, .perform 0 (.created "a"), .perform 1 (.created "b"), .resume 0, .resume 1,
    .perform 0 .succeeds, .perform 1 .succeeds, .resume 0, .resume 1, .perform 0 (.secret .succeeds),
    .perform 1 exists_, .resume 0, .resume 1, .start 2 .onModuleInit, .perform 2 (.secret .succeeds),
    .resume 2, .start 3 (.createUcan 0 fields), .perform 3 (.built 0), .resume 3,
    .start 4 (.validateUcan 2 (plainLibrary.build (fields.payload "a" "a") 0)), .perform 4 .succeeds,
    .resume 4]

/-- Before the first process starts. -/
def noProcess : SigningState String :=
  SigningState.fresh (fun _ => none) (fun _ byteLength => List.replicate byteLength 0) []

theorem one_did_three_processes :
    (run (signingStep plainSigning) noProcess threeProcesses).isSome = true ∧
      ∃ did, Throughout (signingStep plainSigning) (fun m => OneDid did m.world) noProcess
        threeProcesses :=
  ⟨by decide +kernel, one_did plainSigning rfl plainSodium_lawful plainLibrary_lawful (fun _ => none)
    _ [] (fun _ mem => by cases mem) threeProcesses⟩

section
variable {Keypair : Type} {config : SigningConfig Keypair} {w : SigningWorld Keypair}

/-- What a validation says: a token that is accepted was built, and is accepted as what it was built
for; and one that was built is accepted so, unless the process has not started or the library refuses. -/
structure ValidatedRight (w : SigningWorld Keypair) (validated : ValidatedUcan) : Prop where
  sound : validated.result.valid = true → ∃ b ∈ w.built, b.token = validated.token ∧
    validated.result = b.fields.accepted
  complete : ∀ b ∈ w.built, b.token = validated.token → validated.result = b.fields.accepted ∨
    validated.result = notInitialized ∨ validated.result = invalidSignature

/-- What QPS has built reads as what it was built of. -/
theorem BuiltUcan.ByQps.parses {built : BuiltUcan} {keys : Keys KeyAnswer}
    (byQps : built.ByQps config keys) (lawful : config.library.Lawful) :
    config.library.parse built.token =
      .ok (built.fields.payload built.issuer built.issuer) := by
  obtain ⟨n, isToken⟩ := byQps.token
  rw [isToken, byQps.audience]
  exact lawful.ucan built.fields built.issuer built.issuer n

/-- The checks on what was built, in the name of the one who has built it. -/
theorem checkPayload_payload (fields : UcanFields) (did : String) :
    checkPayload did (fields.payload did did) = fields.accepted :=
  checkPayload_qpsPayload did _ _ _ _

theorem SigningInv.validatedRight (inv : SigningInv config w) (lawful : config.library.Lawful)
    {validated : ValidatedUcan} (mem : validated ∈ w.validated) : ValidatedRight w validated := by
  have checked : ∀ {did parsed} (b : BuiltUcan), b ∈ w.built → b.token = validated.token →
      Signed config w.keys did → config.library.parse validated.token = .ok parsed →
      checkPayload did parsed = b.fields.accepted := by
    intro did parsed b isBuilt isToken signed isParsed
    have byQps := inv.built b isBuilt
    have parses := byQps.parses lawful
    rw [isToken, isParsed] at parses
    rw [Except.ok.inj parses, signed.unique byQps.signed]
    exact checkPayload_payload b.fields b.issuer
  have known := inv.validated validated mem
  constructor
  · intro valid
    rcases known with isResult | isResult | ⟨e, -, notValid⟩ |
      ⟨did, parsed, signed, isParsed, isResult, genuine⟩
    · rw [isResult] at valid
      cases valid
    · rw [isResult] at valid
      cases valid
    · rw [notValid] at valid
      cases valid
    · obtain ⟨b, isBuilt, isToken⟩ := genuine (iss_of_checkPayload (isResult ▸ valid))
      exact ⟨b, isBuilt, isToken, isResult.trans (checked b isBuilt isToken signed isParsed)⟩
  · intro b isBuilt isToken
    rcases known with isResult | isResult | ⟨e, isError, -⟩ |
      ⟨did, parsed, signed, isParsed, isResult, -⟩
    · exact .inr (.inl isResult)
    · exact .inr (.inr isResult)
    · have parses := (inv.built b isBuilt).parses lawful
      rw [isToken, isError] at parses
      cases parses
    · exact .inl (isResult.trans (checked b isBuilt isToken signed isParsed))

/-- **A token is good in every process.** In every run, a token that some process has built is accepted
by any other as exactly what it was built for, and nothing else is ever accepted. -/
theorem ucans_interchangeable (config : SigningConfig Keypair)
    (remote : config.keys.env.isLocal = false) (keysLawful : config.keys.sodium.Lawful)
    (lawful : config.library.Lawful) (secrets : String → Option Secret)
    (random : Nat → Nat → Bytes) (built : List BuiltUcan)
    (earlier : EarlierBuilt config secrets built) (moves : List (SigningMove Keypair))
    (m : SigningState Keypair)
    (ran : run (signingStep config) (SigningState.fresh secrets random built) moves = some m) :
    ∀ validated ∈ m.world.validated, ValidatedRight m.world validated := by
  have safe : Safe (signingDiscipline config) (performSigning config) m :=
    run_keeps (fun _ _ _ safe taken => (safe_signingStep remote keysLawful lawful safe taken).1)
      (safe_signing_fresh random earlier) ran
  exact fun validated mem => safe.inv.validatedRight lawful mem

end

theorem ucans_interchangeable_three_processes :
    ∃ m, run (signingStep plainSigning) noProcess threeProcesses = some m ∧
      m.world.validated.map (·.result.valid) = [true] ∧
      ∀ validated ∈ m.world.validated, ValidatedRight m.world validated := by
  have accepted : (run (signingStep plainSigning) noProcess threeProcesses).any (fun m =>
      decide (m.world.validated.map (·.result.valid) = [true])) = true := by decide +kernel
  obtain ⟨m, ran, valid⟩ := (Option.any_eq_true _ _).mp accepted
  exact ⟨m, ran, of_decide_eq_true valid,
    ucans_interchangeable plainSigning rfl plainSodium_lawful plainLibrary_lawful (fun _ => none)
      _ [] (fun _ mem => by cases mem) threeProcesses m ran⟩

end QuietStorage.Qps
