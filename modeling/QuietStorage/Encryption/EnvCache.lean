import QuietStorage.Encryption.EnvSecrets

/-!
# Encryption.EnvCache — the right secret, and the latest one

What a caller of `getSecretEnvVar` may expect (`Coherent`): a scoped call looks only under the prefix of
its environment and returns what was stored there, or the local variable of its name; what comes from
the cache was cached at most five minutes before; and after a `create` that has succeeded no call
returns what was answered before it.

**When it holds** (`envSecrets_coherent`). Where `ENV` is `dev`, in whatever letters, the prefix is that
of production. In every other environment that is not local it holds in every state of every run in
which no creation goes on while another call for its name holds an older answer, and no unscoped call
falls back to a local variable under a name with the prefix (`Orderly`).

The invariant says of the cache what `Coherent` says of the calls that take their values from it, and
that the answers which calls hold are not older than the creations which have gone on.
-/

set_option autoImplicit false

namespace QuietStorage.Encryption

open Lib EnvWorld

/-! ## What callers expect -/

/-- The name under which an environment keeps a secret. -/
def scopedName (env : Environment) (secretName : String) : String :=
  (match env with
    | .Development => "DEV_"
    | .Production => "PROD_"
    | _ => "") ++ secretName

/-- The right secret, and the latest one. -/
structure Coherent (config : EnvConfig) (env : Environment) (w : EnvWorld) : Prop where
  /-- A scoped call asks for nothing but the secret of its environment. -/
  asks : ∀ asked ∈ w.asked, ∀ secretName, asked.call = .read secretName true →
    asked.secretId = scopedName env secretName
  /-- It returns what was stored there, or the local variable. -/
  returns : ∀ r ∈ w.returned, r.useEnvScopedName = true → ∀ value, r.value = some value →
    (∃ secret, w.Stored (scopedName env r.secretName) secret ∧
      config.parseSecretString secret = some value) ∨ config.getString r.secretName = some value
  /-- What comes from the cache was cached less than five minutes before. -/
  fresh : ∀ r ∈ w.returned, ∀ cachedAt, r.cachedAt = some cachedAt →
    cachedAt ≤ r.time ∧ r.time < cachedAt + ENV_SECRET_CACHE_TTL_MS
  /-- A call that began after a creation had ended returns nothing that was answered before it. -/
  latest : ∀ r ∈ w.returned, ∀ c ∈ w.created, c.secretName = r.key → c.ended ≤ r.began →
    c.effect ≤ r.answeredAt

/-- No other call for the name holds an answer from before the one that this call holds. -/
def NoneOlder (w : EnvWorld) (t : Nat) : Prop :=
  ∀ held, w.held t = some held → ∀ t' held', w.held t' = some held' → held'.key = held.key →
    held.answeredAt ≤ held'.answeredAt

/-- The condition on a command: a creation goes on only when no other call holds an older answer. -/
def GoesOnLast (w : EnvWorld) : EnvCommand → Prop
  | .turn t (.create _ _) => NoneOlder w t
  | _ => True

/-- The condition on a call: an unscoped one whose name has the prefix has no local variable. -/
def Unshadowed (config : EnvConfig) (env : Environment) : EnvCall → Prop
  | .read secretName false =>
    ∀ secretName', secretName = scopedName env secretName' → config.getString secretName = none
  | _ => True

/-- **The condition on a move.** -/
def Orderly (config : EnvConfig) (env : Environment) (m : EnvState) (move : EnvMove) : Prop :=
  (∀ t call, move = .start t call → Unshadowed config env call) ∧
  ∀ t choice c k, move = .perform t choice → m.tasks t = .waiting c k → GoesOnLast m.world c

/-! ## The invariant -/

/-- Where a value comes from that is kept under a name. -/
def From (config : EnvConfig) (env : Environment) (w : EnvWorld) (key value : String) : Prop :=
  (∃ secret, w.Stored key secret ∧ config.parseSecretString secret = some value) ∨
    ∀ secretName, key = scopedName env secretName → config.getString secretName = some value

structure EnvInv (config : EnvConfig) (env : Environment) (w : EnvWorld) : Prop where
  coherent : Coherent config env w
  cached_stamped : ∀ key cached, w.secretEnvVarCache key = some cached → ∃ stamp,
    w.stamps key = some stamp ∧ cached.expiresAt = stamp.cachedAt + ENV_SECRET_CACHE_TTL_MS ∧
      stamp.cachedAt ≤ w.now
  cached_from : ∀ key cached, w.secretEnvVarCache key = some cached →
    From config env w key cached.value
  cached_latest : ∀ key cached stamp, w.secretEnvVarCache key = some cached →
    w.stamps key = some stamp → ∀ c ∈ w.created, c.secretName = key → c.effect ≤ stamp.answeredAt
  held_latest : ∀ t held, w.held t = some held → ∀ c ∈ w.settled, c.1 = held.key →
    c.2 ≤ held.answeredAt
  held_le : ∀ t held, w.held t = some held → held.answeredAt ≤ w.moment
  settled_le : ∀ c ∈ w.settled, c.2 ≤ w.moment
  created_settled : ∀ c ∈ w.created, (c.secretName, c.effect) ∈ w.settled
  began_le : ∀ r ∈ w.returned, r.began ≤ w.moment

/-- What a call returns: it comes from where it may, and the call holds the answer that it comes of, or
took it from the cache. -/
structure Returns (config : EnvConfig) (env : Environment) (w : EnvWorld) (t : Nat) (key : String)
    (value : Option String) : Prop where
  from_ : ∀ v, value = some v → From config env w key v
  source : (∃ held, w.held t = some held ∧ held.key = key) ∨
    ∃ stamp, w.held t = none ∧ w.stamps key = some stamp ∧ stamp.cachedAt ≤ w.now ∧
      w.now < stamp.cachedAt + ENV_SECRET_CACHE_TTL_MS
  latest : w.held t = none → ∀ stamp, w.stamps key = some stamp → ∀ c ∈ w.created,
    c.secretName = key → c.effect ≤ stamp.answeredAt

/-- How the world grows. -/
structure EnvWorld.Grows (w w' : EnvWorld) : Prop where
  stored : ∀ secretName secret, w.Stored secretName secret → w'.Stored secretName secret
  moment : w.moment ≤ w'.moment
  settled : ∀ c ∈ w.settled, c ∈ w'.settled

theorem EnvWorld.Grows.refl (w : EnvWorld) : Grows w w := ⟨fun _ _ => id, le_rfl, fun _ => id⟩

theorem EnvWorld.Grows.trans {w w₁ w₂ : EnvWorld} (first : Grows w w₁) (second : Grows w₁ w₂) :
    Grows w w₂ :=
  ⟨fun n s stored => second.stored n s (first.stored n s stored), first.moment.trans second.moment,
    fun c mem => second.settled c (first.settled c mem)⟩

/-- What belongs to a call is the answer that it holds. -/
def envDiscipline (config : EnvConfig) (env : Environment) : Discipline EnvWorld where
  Inv := EnvInv config env
  Grows := EnvWorld.Grows
  Keeps t w w' := w'.held t = w.held t
  Idle t w := w.held t = none
  refl := .refl
  trans := .trans
  keeps_refl _ _ := rfl
  keeps_trans first second := second.trans first
  idle_keeps idle kept := kept.trans idle

section
variable {config : EnvConfig} {env : Environment} {w : EnvWorld}

theorem From.mono {w' : EnvWorld} {key value : String} (from_ : From config env w key value)
    (grown : w.Grows w') : From config env w' key value :=
  from_.imp_left fun ⟨secret, stored, parsed⟩ => ⟨secret, grown.stored key secret stored, parsed⟩

theorem EnvWorld.Stored.mono {w' : EnvWorld} {secretName : String} {secret : Secret}
    (stored : w.Stored secretName secret) (grown : w.Grows w') : w'.Stored secretName secret :=
  grown.stored _ _ stored

/-! ## One change at a time -/

theorem grows_moveKeys (keys : Keys Unit) : w.Grows (w.moveKeys keys) where
  stored secretName secret stored := by
    obtain ⟨keys', mem, isSecret⟩ := stored
    exact ⟨keys', List.mem_cons_of_mem keys mem, isSecret⟩
  moment := le_rfl
  settled _ := id

theorem Coherent.mono {w' : EnvWorld} (coherent : Coherent config env w)
    (asked : w'.asked = w.asked) (returned : w'.returned = w.returned)
    (created : w'.created = w.created)
    (stored : ∀ n s, w.Stored n s → w'.Stored n s) : Coherent config env w' where
  asks := by rw [asked]; exact coherent.asks
  returns := by
    rw [returned]
    intro r mem isScoped value isValue
    exact (coherent.returns r mem isScoped value isValue).imp_left
      fun ⟨secret, isStored, parsed⟩ => ⟨secret, stored _ _ isStored, parsed⟩
  fresh := by rw [returned]; exact coherent.fresh
  latest := by rw [returned, created]; exact coherent.latest

theorem EnvInv.moveKeys (inv : EnvInv config env w) (keys : Keys Unit) :
    EnvInv config env (w.moveKeys keys) where
  coherent := inv.coherent.mono rfl rfl rfl (grows_moveKeys keys).stored
  cached_stamped := inv.cached_stamped
  cached_from key cached isCached := (inv.cached_from key cached isCached).mono (grows_moveKeys keys)
  cached_latest := inv.cached_latest
  held_latest := inv.held_latest
  held_le := inv.held_le
  settled_le := inv.settled_le
  created_settled := inv.created_settled
  began_le := inv.began_le

theorem EnvInv.clock (inv : EnvInv config env w) {now : Nat} (later : w.now ≤ now) :
    EnvInv config env { w with now := now } where
  coherent := inv.coherent.mono rfl rfl rfl fun _ _ => id
  cached_stamped key cached isCached := by
    obtain ⟨stamp, isStamp, expires, before⟩ := inv.cached_stamped key cached isCached
    exact ⟨stamp, isStamp, expires, before.trans later⟩
  cached_from := inv.cached_from
  cached_latest := inv.cached_latest
  held_latest := inv.held_latest
  held_le := inv.held_le
  settled_le := inv.settled_le
  created_settled := inv.created_settled
  began_le := inv.began_le

theorem held_hold_self (t : Nat) (held : Option Held) : (w.hold t held).held t = held :=
  Function.update_self ..

theorem held_hold_of_ne {t t' : Nat} (other : t' ≠ t) (held : Option Held) :
    (w.hold t held).held t' = w.held t' :=
  Function.update_of_ne other ..

theorem held_release_self (t : Nat) : (w.release t).held t = none := Function.update_self ..

theorem held_release_of_ne {t t' : Nat} (other : t' ≠ t) : (w.release t).held t' = w.held t' :=
  Function.update_of_ne other ..

theorem cached_delete_self (key : String) : (w.deleteCached key).secretEnvVarCache key = none :=
  Function.update_self ..

theorem cached_delete_of_ne {key key' : String} (other : key' ≠ key) :
    (w.deleteCached key).secretEnvVarCache key' = w.secretEnvVarCache key' :=
  Function.update_of_ne other ..

theorem cached_set_self (t : Nat) (key value : String) :
    (w.setCached t key value).secretEnvVarCache key =
      some { value := value, expiresAt := w.now + ENV_SECRET_CACHE_TTL_MS } :=
  Function.update_self ..

theorem cached_set_of_ne {key key' : String} (other : key' ≠ key) (t : Nat) (value : String) :
    (w.setCached t key value).secretEnvVarCache key' = w.secretEnvVarCache key' :=
  Function.update_of_ne other ..

theorem stamps_set_self (t : Nat) (key value : String) :
    (w.setCached t key value).stamps key =
      some { cachedAt := w.now, answeredAt := w.answerOf t } :=
  Function.update_self ..

theorem stamps_set_of_ne {key key' : String} (other : key' ≠ key) (t : Nat) (value : String) :
    (w.setCached t key value).stamps key' = w.stamps key' :=
  Function.update_of_ne other ..

/-- A new answer is later than whatever has gone on. -/
theorem EnvInv.hold (inv : EnvInv config env w) (t : Nat) (held : Option Held)
    (new : ∀ h, held = some h → h.answeredAt = w.moment + 1) :
    EnvInv config env (w.hold t held) where
  coherent := inv.coherent.mono rfl rfl rfl fun _ _ => id
  cached_stamped := inv.cached_stamped
  cached_from := inv.cached_from
  cached_latest := inv.cached_latest
  held_latest t' held' isHeld c mem same := by
    by_cases own : t' = t
    · rw [own, held_hold_self] at isHeld
      have isNew := new held' isHeld
      have old := inv.settled_le c mem
      omega
    · rw [held_hold_of_ne own] at isHeld
      exact inv.held_latest t' held' isHeld c mem same
  held_le t' held' isHeld := by
    by_cases own : t' = t
    · rw [own, held_hold_self] at isHeld
      exact (new held' isHeld).le
    · rw [held_hold_of_ne own] at isHeld
      exact (inv.held_le t' held' isHeld).trans (Nat.le_succ _)
  settled_le c mem := (inv.settled_le c mem).trans (Nat.le_succ _)
  created_settled := inv.created_settled
  began_le r mem := (inv.began_le r mem).trans (Nat.le_succ _)

theorem EnvInv.release (inv : EnvInv config env w) (t : Nat) : EnvInv config env (w.release t) := by
  have still : ∀ t' held', (w.release t).held t' = some held' → w.held t' = some held' := by
    intro t' held' isHeld
    by_cases own : t' = t
    · rw [own, held_release_self] at isHeld
      cases isHeld
    · rwa [held_release_of_ne own] at isHeld
  constructor
  case coherent => exact inv.coherent.mono rfl rfl rfl fun _ _ => id
  case cached_stamped => exact inv.cached_stamped
  case cached_from => exact inv.cached_from
  case cached_latest => exact inv.cached_latest
  case held_latest => exact fun t' held' isHeld => inv.held_latest t' held' (still t' held' isHeld)
  case held_le => exact fun t' held' isHeld => inv.held_le t' held' (still t' held' isHeld)
  case settled_le => exact inv.settled_le
  case created_settled => exact inv.created_settled
  case began_le => exact inv.began_le

theorem EnvInv.ask (inv : EnvInv config env w) {call : EnvCall} {secretId : String}
    (right : ∀ secretName, call = .read secretName true → secretId = scopedName env secretName) :
    EnvInv config env (w.ask call secretId) where
  coherent :=
    { asks := List.forall_mem_cons.mpr ⟨right, inv.coherent.asks⟩
      returns := inv.coherent.returns
      fresh := inv.coherent.fresh
      latest := inv.coherent.latest }
  cached_stamped := inv.cached_stamped
  cached_from := inv.cached_from
  cached_latest := inv.cached_latest
  held_latest := inv.held_latest
  held_le := inv.held_le
  settled_le := inv.settled_le
  created_settled := inv.created_settled
  began_le := inv.began_le

theorem EnvInv.deleteCached (inv : EnvInv config env w) (key : String) :
    EnvInv config env (w.deleteCached key) := by
  have still : ∀ key' cached, (w.deleteCached key).secretEnvVarCache key' = some cached →
      w.secretEnvVarCache key' = some cached := by
    intro key' cached isCached
    by_cases same : key' = key
    · rw [same, cached_delete_self] at isCached
      cases isCached
    · rwa [cached_delete_of_ne same] at isCached
  constructor
  case coherent => exact inv.coherent.mono rfl rfl rfl fun _ _ => id
  case cached_stamped => exact fun key' cached is => inv.cached_stamped key' cached (still _ _ is)
  case cached_from => exact fun key' cached is => inv.cached_from key' cached (still _ _ is)
  case cached_latest =>
    exact fun key' cached stamp is => inv.cached_latest key' cached stamp (still _ _ is)
  case held_latest => exact inv.held_latest
  case held_le => exact inv.held_le
  case settled_le => exact inv.settled_le
  case created_settled => exact inv.created_settled
  case began_le => exact inv.began_le

theorem answerOf_held {t : Nat} {held : Held} (isHeld : w.held t = some held) :
    w.answerOf t = held.answeredAt := by
  rw [answerOf, isHeld]
  rfl

/-- A value is cached by a call that holds the answer for its name. -/
theorem EnvInv.setCached (inv : EnvInv config env w) {t : Nat} {held : Held} {value : String}
    (isHeld : w.held t = some held) (from_ : From config env w held.key value) :
    EnvInv config env (w.setCached t held.key value) where
  coherent := inv.coherent.mono rfl rfl rfl fun _ _ => id
  cached_stamped key cached isCached := by
    by_cases same : key = held.key
    · rw [same, cached_set_self] at isCached
      cases isCached
      rw [same]
      exact ⟨_, stamps_set_self t held.key value, rfl, le_rfl⟩
    · rw [cached_set_of_ne same] at isCached
      rw [stamps_set_of_ne same]
      exact inv.cached_stamped key cached isCached
  cached_from key cached isCached := by
    by_cases same : key = held.key
    · rw [same, cached_set_self] at isCached
      cases isCached
      exact same ▸ from_
    · rw [cached_set_of_ne same] at isCached
      exact inv.cached_from key cached isCached
  cached_latest key cached stamp isCached isStamp c mem named := by
    by_cases same : key = held.key
    · rw [same, stamps_set_self, answerOf_held isHeld] at isStamp
      cases isStamp
      exact inv.held_latest t held isHeld _ (inv.created_settled c mem) (named.trans same)
    · rw [cached_set_of_ne same] at isCached
      rw [stamps_set_of_ne same] at isStamp
      exact inv.cached_latest key cached stamp isCached isStamp c mem named
  held_latest := inv.held_latest
  held_le := inv.held_le
  settled_le := inv.settled_le
  created_settled := inv.created_settled
  began_le := inv.began_le

/-- A creation goes on, and no other call holds an older answer for its name. -/
theorem EnvInv.settle (inv : EnvInv config env w) {t : Nat} {held : Held}
    (isHeld : w.held t = some held) (noneOlder : NoneOlder w t) :
    EnvInv config env (w.settle t held.key) where
  coherent := inv.coherent.mono rfl rfl rfl fun _ _ => id
  cached_stamped := inv.cached_stamped
  cached_from := inv.cached_from
  cached_latest := inv.cached_latest
  held_latest t' held' isHeld' c mem same := by
    rcases List.mem_cons.mp mem with rfl | mem
    · dsimp only at same ⊢
      rw [answerOf_held isHeld]
      exact noneOlder held isHeld t' held' isHeld' same.symm
    · exact inv.held_latest t' held' isHeld' c mem same
  held_le := inv.held_le
  settled_le := by
    refine List.forall_mem_cons.mpr ⟨?_, inv.settled_le⟩
    dsimp only
    rw [answerOf_held isHeld]
    exact inv.held_le t held isHeld
  created_settled c mem := List.mem_cons_of_mem _ (inv.created_settled c mem)
  began_le := inv.began_le

/-- A creation ends that has settled, and what is cached under its name is not older. -/
theorem EnvInv.recordCreated (inv : EnvInv config env w) {t : Nat} {held : Held}
    (isHeld : w.held t = some held) (settled : (held.key, held.answeredAt) ∈ w.settled)
    (latest : ∀ cached stamp, w.secretEnvVarCache held.key = some cached →
      w.stamps held.key = some stamp → held.answeredAt ≤ stamp.answeredAt) :
    EnvInv config env (w.recordCreated t held.key) where
  coherent :=
    { asks := inv.coherent.asks
      returns := inv.coherent.returns
      fresh := inv.coherent.fresh
      latest := by
        intro r memR c memC named ended
        rcases List.mem_cons.mp memC with rfl | memC
        · -- The calls that have returned began before.
          have began := inv.began_le r memR
          dsimp only at ended
          omega
        · exact inv.coherent.latest r memR c memC named ended }
  cached_stamped := inv.cached_stamped
  cached_from := inv.cached_from
  cached_latest key cached stamp isCached isStamp c mem named := by
    rcases List.mem_cons.mp mem with rfl | mem
    · dsimp only at named ⊢
      subst named
      rw [answerOf_held isHeld]
      exact latest cached stamp isCached isStamp
    · exact inv.cached_latest key cached stamp isCached isStamp c mem named
  held_latest := inv.held_latest
  held_le t' held' isHeld' := (inv.held_le t' held' isHeld').trans (Nat.le_succ _)
  settled_le c mem := (inv.settled_le c mem).trans (Nat.le_succ _)
  created_settled := by
    refine List.forall_mem_cons.mpr ⟨?_, inv.created_settled⟩
    dsimp only
    rw [answerOf_held isHeld]
    exact settled
  began_le r mem := (inv.began_le r mem).trans (Nat.le_succ _)

/-- A call returns, and what it returns is what a caller expects. -/
theorem EnvInv.recordReturned (inv : EnvInv config env w) {t began : Nat} {secretName : String}
    {useEnvScopedName : Bool} {value : Option String} (earlier : began ≤ w.moment)
    (right : Returns config env w t (EnvCall.key config (.read secretName useEnvScopedName)) value)
    (isScoped : useEnvScopedName = true → EnvCall.key config (.read secretName useEnvScopedName) =
      scopedName env secretName) :
    EnvInv config env (w.recordReturned config t secretName useEnvScopedName began value) where
  coherent :=
    { asks := inv.coherent.asks
      returns := by
        refine List.forall_mem_cons.mpr ⟨fun named value' isValue => ?_, inv.coherent.returns⟩
        have from_ := right.from_ value' isValue
        rw [isScoped named] at from_
        exact from_.imp_right fun local_ => local_ secretName rfl
      fresh := by
        refine List.forall_mem_cons.mpr ⟨fun cachedAt isCached => ?_, inv.coherent.fresh⟩
        dsimp only at isCached ⊢
        rcases right.source with ⟨held, isHeld, _⟩ | ⟨stamp, notHeld, isStamp, cached, alive⟩
        · simp only [isHeld, Option.isSome_some, if_true, Option.map_none, reduceCtorEq] at isCached
        · simp only [notHeld, Option.isSome_none, Bool.false_eq_true, if_false, isStamp,
            Option.map_some, Option.some.injEq] at isCached
          subst isCached
          exact ⟨cached, alive⟩
      latest := by
        refine List.forall_mem_cons.mpr ⟨fun c mem named ended => ?_, inv.coherent.latest⟩
        dsimp only at named ⊢
        rcases right.source with ⟨held, isHeld, isKey⟩ | ⟨stamp, notHeld, isStamp, cached, alive⟩
        · simp only [isHeld, Option.isSome_some, if_true, Option.map_none, Option.getD_none,
            answerOf_held isHeld]
          exact inv.held_latest t held isHeld _ (inv.created_settled c mem) (named.trans isKey.symm)
        · simp only [notHeld, Option.isSome_none, Bool.false_eq_true, if_false, isStamp,
            Option.map_some, Option.getD_some]
          exact right.latest notHeld stamp isStamp c mem named }
  cached_stamped := inv.cached_stamped
  cached_from := inv.cached_from
  cached_latest := inv.cached_latest
  held_latest := inv.held_latest
  held_le := inv.held_le
  settled_le := inv.settled_le
  created_settled := inv.created_settled
  began_le := List.forall_mem_cons.mpr ⟨earlier, inv.began_le⟩

end

end QuietStorage.Encryption
