import QuietStorage.Communities.Create
import QuietStorage.Storage.PostgresRepo

/-!
# Communities.Storage — the communities in the database

`CommunitiesStorageService` over `PostgresRepo`, in any number of overlapping calls, with a database that
may fail at every statement and may answer a commit with silence (`Lib.Transactions`).

**At one moment** (`storage_linearizable`): what the calls answer is what a table that does one call after
the other answers (`CommunityTable.apply`), in an order that respects which call ended before which was
made. A call that met a failure of the database is not promised anything: `addCommunity` and
`updateCommunity` then answer `false` although the row may be written, and later.

**What was added stays** (`added_stays`): of the calls that add a team, one answers that it did; whoever
asks after that finds the team, with a chain that was given to a call for this team.

The codec of `uint8arrays` is a parameter. Left out: the logger, and `close`.
-/

set_option autoImplicit false

namespace QuietStorage.Communities

open Lib Encryption PostgresRepo

/-- The row: the id is that of the team. -/
structure CommunityEntity where
  id : TeamId
  sigChain : Bytes
  deriving DecidableEq, Repr

/-- `EntityData` with the keys that are there. -/
structure CommunityData where
  sigChain : Option Bytes
  deriving DecidableEq, Repr

structure CommunityUpdate where
  sigChain : Option String
  deriving DecidableEq, Repr

/-- The rows of the `communities` table. -/
def communityRows : Entity CommunityEntity CommunityData where
  id := CommunityEntity.id
  assign updates row := { row with sigChain := updates.sigChain.getD row.sigChain }
  hasKeys updates := updates.sigChain.isSome
  id_assign _ _ := rfl

/-- `uint8arrays.fromString(text, 'hex')` and `uint8arrays.toString(bytes, 'hex')`. -/
structure HexCodec where
  fromHex : String → Except StorageError Bytes
  toHex : Bytes → String

inductive Operation where
  | addCommunity (payload : Community)
  | updateCommunity (teamId : TeamId) (payload : CommunityUpdate)
  | updateAndFindCommunity (teamId : TeamId) (payload : CommunityUpdate)
  | getCommunity (teamId : TeamId)
  | hasCommunity (teamId : TeamId)
  | clearRepository
  deriving DecidableEq, Repr

inductive Answer where
  | boolean (value : Bool)
  | community (value : Option Community)
  | nothing
  deriving DecidableEq, Repr

abbrev StorageM (α : Type) := RepoM CommunityEntity CommunityData α

namespace CommunitiesStorageService

variable (codec : HexCodec)

def payloadToEntity (payload : Community) : Except StorageError CommunityEntity := do
  let sigChain ← codec.fromHex payload.sigChain
  pure { id := payload.teamId, sigChain := sigChain }

def payloadToEntityData (payload : CommunityUpdate) : Except StorageError CommunityData :=
  match payload.sigChain with
  | none => pure { sigChain := none }
  | some text => do
    let sigChain ← codec.fromHex text
    pure { sigChain := some sigChain }

def entityToPayload (entity : CommunityEntity) : Community where
  teamId := entity.id
  sigChain := codec.toHex entity.sigChain

def addCommunity (payload : Community) : StorageM Bool := do
  try
    let entity ← MonadExcept.ofExcept (payloadToEntity codec payload)
    add entity false
  catch _ => pure false

def updateCommunity (teamId : TeamId) (payload : CommunityUpdate) : StorageM Bool := do
  try
    let updates ← MonadExcept.ofExcept (payloadToEntityData codec payload)
    update teamId updates
  catch _ => pure false

def updateAndFindCommunity (teamId : TeamId) (payload : CommunityUpdate) :
    StorageM (Option Community) := do
  let updates ← MonadExcept.ofExcept (payloadToEntityData codec payload)
  let result ← updateAndFindOne teamId updates
  pure (result.map (entityToPayload codec))

def getCommunity (teamId : TeamId) : StorageM (Option Community) := do
  let result ← findOne teamId
  pure (result.map (entityToPayload codec))

def hasCommunity (teamId : TeamId) : StorageM Bool := do
  let result ← has teamId
  match result with
  | none => throw (.error
      s!"Failed to determine if community with ID {teamId} exists in storage")
  | some result => pure result

def clearRepository (getEnv : Except StorageError Environment) : StorageM Unit := do
  let _ ← PostgresRepo.clearRepository getEnv
  pure ()

/-- The program of a call. -/
def program (getEnv : Except StorageError Environment) : Operation → StorageM Answer
  | .addCommunity payload => do
    let stored ← addCommunity codec payload
    pure (.boolean stored)
  | .updateCommunity teamId payload => do
    let updated ← updateCommunity codec teamId payload
    pure (.boolean updated)
  | .updateAndFindCommunity teamId payload => do
    let community ← updateAndFindCommunity codec teamId payload
    pure (.community community)
  | .getCommunity teamId => do
    let community ← getCommunity codec teamId
    pure (.community community)
  | .hasCommunity teamId => do
    let has ← hasCommunity teamId
    pure (.boolean has)
  | .clearRepository => do
    clearRepository getEnv
    pure .nothing

end CommunitiesStorageService

/-! ## One call after the other -/

abbrev CommunityTable := Table communityRows

namespace CommunityTable

open CommunitiesStorageService

variable (codec : HexCodec)

/-- What a call does in production when nothing else runs and nothing fails. -/
def apply : Object CommunityTable Operation (Except StorageError Answer)
  | .addCommunity payload, rows =>
    match payloadToEntity codec payload with
    | .error _ => (rows, .ok (.boolean false))
    | .ok entity =>
      match rows.row payload.teamId with
      | some _ => (rows, .ok (.boolean false))
      | none => (rows.put entity, .ok (.boolean true))
  | .updateCommunity teamId payload, rows =>
    match payloadToEntityData codec payload with
    | .error _ => (rows, .ok (.boolean false))
    | .ok updates =>
      match rows.updated teamId updates with
      | none => (rows, .ok (.boolean false))
      | some row => (rows.put row, .ok (.boolean true))
  | .updateAndFindCommunity teamId payload, rows =>
    match payloadToEntityData codec payload with
    | .error e => (rows, .error e)
    | .ok updates =>
      match rows.updated teamId updates with
      | none => (rows, .ok (.community none))
      | some row => (rows.put row, .ok (.community (some (entityToPayload codec row))))
  | .getCommunity teamId, rows =>
    (rows, .ok (.community ((rows.row teamId).map (entityToPayload codec))))
  | .hasCommunity teamId, rows => (rows, .ok (.boolean (rows.row teamId).isSome))
  | .clearRepository, rows =>
    (rows, .error (.error "Clearing a repsitory is forbidden in production"))

end CommunityTable

abbrev StorageState := DbState communityRows (Option Nat) StorageError Answer Operation

/-- One step of the calls of the service. -/
def storageStep (codec : HexCodec) (getEnv : Except StorageError Environment) :
    StorageState → DbAction Operation → Option StorageState :=
  dbStep StorageError.sql none (CommunitiesStorageService.program codec getEnv)

/-! ## Every call is sound -/

section
variable {codec : HexCodec}

/-- The program of the operation does in production what the table says. -/
def SoundCall (codec : HexCodec) (op : Operation) : Prop :=
  ∀ view, Sound (CommunityTable.apply codec) .sql op
    (CommunitiesStorageService.program codec (.ok .Production) op) none (.called op) none view

open CommunitiesStorageService

theorem payloadToEntity_ok {payload : Community} {entity : CommunityEntity}
    (isEntity : payloadToEntity codec payload = .ok entity) :
    entity.id = payload.teamId ∧ codec.fromHex payload.sigChain = .ok entity.sigChain := by
  unfold payloadToEntity at isEntity
  cases decoded : codec.fromHex payload.sigChain with
  | error e =>
    rw [decoded] at isEntity
    cases isEntity
  | ok bytes =>
    rw [decoded] at isEntity
    cases isEntity
    exact ⟨rfl, rfl⟩

theorem addCommunity_sound (payload : Community) : SoundCall codec (.addCommunity payload) := by
  intro view
  dsimp only [program, addCommunity]
  cases isEntity : payloadToEntity codec payload with
  | error e =>
    refine .inr ⟨rfl, fun rows => ?_⟩
    simp only [CommunityTable.apply, isEntity]
  | ok entity =>
    have isId : communityRows.id entity = payload.teamId := (payloadToEntity_ok isEntity).1
    refine ⟨trivial, fun rows _ locked found rows' tx' r ran => ?_⟩
    cases ran
    refine ⟨_, .stays, ⟨rfl, fun r => ?_⟩, fun rows₁ _ locked found rows' tx' r ran => ?_⟩
    · cases r <;> trivial
    obtain ⟨rfl, ⟨row, there, rfl, rfl⟩ | ⟨absent, rfl, rfl⟩⟩ := insert_ran ran
    · -- the insert is refused, and the transaction rolled back
      rw [isId] at there
      have applied : CommunityTable.apply codec (.addCommunity payload) rows' =
          (rows', .ok (.boolean false)) := by
        simp only [CommunityTable.apply, isEntity, there]
      refine ⟨_, .of_eq rfl applied, trivial, fun rows₂ _ locked found rows' tx' r ran => ?_⟩
      cases ran
      exact ⟨_, .stays, .inl rfl⟩
    · -- the row becomes visible with the commit of the callback; that of `transactional` does nothing
      refine ⟨_, .stays, ⟨rfl, fun r => ?_⟩, fun rows₂ knows locked found rows' tx' r ran => ?_⟩
      · cases r <;> trivial
      cases ran
      have stillAbsent := knows.row.trans absent
      rw [isId] at stillAbsent
      have applied : CommunityTable.apply codec (.addCommunity payload) rows₂ =
          (rows₂.commit (.write .empty entity), .ok (.boolean true)) := by
        simp only [CommunityTable.apply, isEntity, stillAbsent, commit_write]
      refine ⟨_, .of_eq rfl applied, ⟨rfl, fun r => ?_⟩,
        fun rows₃ _ locked found rows' tx' r ran => ?_⟩
      · cases r <;> trivial
      cases ran
      exact ⟨_, .stays, .inl rfl⟩

/-- An update says the same as long as the row is the same. -/
theorem updated_congr {rows rows' : CommunityTable} {teamId : TeamId} {updates : CommunityData}
    (same : rows'.row teamId = rows.row teamId) :
    rows'.updated teamId updates = rows.updated teamId updates := by
  rw [Table.updated, Table.updated, same]

theorem updateCommunity_sound (teamId : TeamId) (payload : CommunityUpdate) :
    SoundCall codec (.updateCommunity teamId payload) := by
  intro view
  dsimp only [program, updateCommunity]
  cases isData : payloadToEntityData codec payload with
  | error e =>
    refine .inr ⟨rfl, fun rows => ?_⟩
    simp only [CommunityTable.apply, isData]
  | ok updates =>
    refine ⟨trivial, fun rows _ locked found rows' tx' r ran => ?_⟩
    cases ran
    refine ⟨_, .stays, ⟨rfl, fun r => ?_⟩, fun rows₁ _ locked found rows' tx' r ran => ?_⟩
    · cases r <;> trivial
    obtain ⟨rfl, ⟨isNone, rfl, rfl⟩ | ⟨row, isRow, isId, rfl, rfl⟩⟩ := nativeUpdate_ran ran
    · have applied : CommunityTable.apply codec (.updateCommunity teamId payload) rows' =
          (rows', .ok (.boolean false)) := by
        simp only [CommunityTable.apply, isData, isNone]
      refine ⟨_, .of_eq rfl applied, ⟨rfl, fun r => ?_⟩,
        fun rows₂ _ locked found rows' tx' r ran => ?_⟩
      · cases r <;> trivial
      cases ran
      exact ⟨_, .stays, .inl rfl⟩
    · refine ⟨_, .stays, ⟨rfl, fun r => ?_⟩, fun rows₂ knows locked found rows₃ tx' r ran => ?_⟩
      · cases r <;> trivial
      cases ran
      have stillRow := (updated_congr (isId ▸ knows.row)).trans isRow
      have applied : CommunityTable.apply codec (.updateCommunity teamId payload) rows₂ =
          (rows₂.commit (.write .empty row), .ok (.boolean true)) := by
        simp only [CommunityTable.apply, isData, stillRow, commit_write]
      exact ⟨_, .of_eq rfl applied, .inl rfl⟩

theorem updateAndFindCommunity_sound (teamId : TeamId) (payload : CommunityUpdate) :
    SoundCall codec (.updateAndFindCommunity teamId payload) := by
  intro view
  dsimp only [program, updateAndFindCommunity]
  cases isData : payloadToEntityData codec payload with
  | error e =>
    refine .inr ⟨rfl, fun rows => ?_⟩
    simp only [CommunityTable.apply, isData]
  | ok updates =>
    refine ⟨trivial, fun rows _ locked found rows' tx' r ran => ?_⟩
    cases ran
    refine ⟨_, .stays, ⟨rfl, fun r => ?_⟩, fun rows₁ _ locked found rows' tx' r ran => ?_⟩
    · cases r <;> trivial
    obtain ⟨rfl, ⟨isNone, rfl, rfl⟩ | ⟨row, isRow, isId, rfl, rfl⟩⟩ := nativeUpdate_ran ran
    · have applied : CommunityTable.apply codec (.updateAndFindCommunity teamId payload) rows' =
          (rows', .ok (.community none)) := by
        simp only [CommunityTable.apply, isData, isNone]
      refine ⟨_, .of_eq rfl applied, ⟨rfl, fun r => ?_⟩,
        fun rows₂ _ locked found rows' tx' r ran => ?_⟩
      · cases r <;> trivial
      cases ran
      exact ⟨_, .stays, .inl rfl⟩
    · -- the transaction finds the row that it has written, and commits it
      refine ⟨_, .stays, ⟨rfl, fun r => ?_⟩, fun rows₂ knows locked found rows₃ tx' r ran => ?_⟩
      · cases r <;> trivial
      have finds : rows₂.visible (.write .empty row) teamId = some row := by
        rw [← isId]
        exact Option.getD_eq_iff.mpr (.inl (Function.update_self ..))
      dsimp only [execute, executeIn] at ran
      rw [finds] at ran
      cases ran
      refine ⟨_, .stays, ⟨rfl, fun r => ?_⟩, fun rows₄ knows' locked found rows₅ tx' r ran => ?_⟩
      · cases r <;> trivial
      cases ran
      have stillRow := (updated_congr (isId ▸ knows'.row.trans knows.row)).trans isRow
      have applied : CommunityTable.apply codec (.updateAndFindCommunity teamId payload) rows₄ =
          (rows₄.commit (.write .empty row),
            .ok (.community (some (entityToPayload codec row)))) := by
        simp only [CommunityTable.apply, isData, stillRow, commit_write]
      exact ⟨_, .of_eq rfl applied, .inl rfl⟩

theorem getCommunity_sound (teamId : TeamId) : SoundCall codec (.getCommunity teamId) := by
  refine fun view => ⟨trivial, fun rows _ locked found rows' tx' r ran => ?_⟩
  cases ran
  refine ⟨_, .stays, ⟨rfl, fun r => ?_⟩, fun rows₁ _ locked found rows' tx' r ran => ?_⟩
  · cases r <;> trivial
  cases ran
  refine ⟨_, .effect rfl, ⟨rfl, fun r => ?_⟩, fun rows₂ _ locked found rows' tx' r ran => ?_⟩
  · cases r <;> trivial
  cases ran
  exact ⟨_, .stays, .inl rfl⟩

theorem hasCommunity_sound (teamId : TeamId) : SoundCall codec (.hasCommunity teamId) := by
  refine fun view => ⟨fun vars => ?_, fun rows _ locked found rows' tx' r ran => ?_⟩
  · cases vars <;> trivial
  cases ran
  refine ⟨_, .stays, ⟨rfl, fun r => ?_⟩, fun rows₁ _ locked found rows' tx' r ran => ?_⟩
  · cases r <;> exact fun vars => by cases vars <;> trivial
  cases ran
  refine ⟨_, .effect rfl, ⟨rfl, fun r => ?_⟩, fun rows₂ _ locked found rows' tx' r ran => ?_⟩
  · cases r <;> exact fun vars => by cases vars <;> trivial
  cases ran
  have counted : (rows₁.row teamId).isSome = decide (0 < (rows₁.row teamId).toList.length) := by
    cases rows₁.row teamId <;> rfl
  refine ⟨_, .stays, .inl ?_⟩
  dsimp only [CommunityTable.apply]
  rw [counted]
  rfl

theorem clearRepository_sound : SoundCall codec .clearRepository :=
  fun _ => .inr ⟨rfl, fun _ => rfl⟩

theorem program_sound (op : Operation) : SoundCall codec op := by
  cases op with
  | addCommunity payload => exact addCommunity_sound payload
  | updateCommunity teamId payload => exact updateCommunity_sound teamId payload
  | updateAndFindCommunity teamId payload => exact updateAndFindCommunity_sound teamId payload
  | getCommunity teamId => exact getCommunity_sound teamId
  | hasCommunity teamId => exact hasCommunity_sound teamId
  | clearRepository => exact clearRepository_sound

end

/-! ## At one moment -/

/-- **The storage of communities is linearizable** in production, whatever calls overlap and whatever the
database fails to answer. -/
theorem storage_linearizable (codec : HexCodec) {rows : CommunityTable} {s : StorageState}
    {as : List (DbAction Operation)}
    (ran : run (storageStep codec (.ok .Production)) (.start rows) as = some s) :
    Linearizable (CommunityTable.apply codec) rows s.history s.rows :=
  linearizable_of_sound program_sound ran

/-- The values of the digits of base 16, in small letters. -/
def hexBytesOf : List Char → Option Bytes
  | [] => some []
  | high :: low :: digits => do
    let high ← "0123456789abcdef".toList.idxOf? high
    let low ← "0123456789abcdef".toList.idxOf? low
    let bytes ← hexBytesOf digits
    pure (UInt8.ofNat (16 * high + low) :: bytes)
  | [_] => none

/-- Base 16 without padding. -/
def plainHex : HexCodec where
  fromHex text :=
    match hexBytesOf text.toList with
    | some bytes => .ok bytes
    | none => .error (.error "Non-base16 character")
  toHex bytes := String.ofList (bytes.flatMap fun byte =>
    [Nat.digitChar (byte.toNat / 16), Nat.digitChar (byte.toNat % 16)])

example : plainHex.fromHex "0aff" = .ok [10, 255] := by decide +kernel
example : plainHex.toHex [10, 255] = "0aff" := by decide +kernel

/-- Two calls add a team; the commit of the first one is not answered, and takes place later. -/
def overlappingAdds : List (DbAction Operation) :=
  [.call 0 (.addCommunity ⟨"team", "0a"⟩), .perform 0 (.runs []), .perform 0 (.runs []),
    .call 1 (.addCommunity ⟨"team", "0b"⟩), .perform 1 (.runs []), .perform 0 .fails,
    .perform 0 .fails, .ret 0, .call 2 (.getCommunity "team"), .perform 2 (.runs []),
    .perform 2 (.runs []), .perform 2 (.runs []), .ret 2, .settle 0 true, .perform 1 (.runs []),
    .perform 1 (.runs []), .ret 1, .call 3 (.getCommunity "team"), .perform 3 (.runs []),
    .perform 3 (.runs []), .perform 3 (.runs []), .ret 3]

/-- The first call is lost, and took place after the call that found nothing. -/
theorem storage_linearizable_late :
    ∃ s, run (storageStep plainHex (.ok .Production)) (.start .empty) overlappingAdds = some s ∧
      s.history = [.call 0 (.addCommunity ⟨"team", "0a"⟩), .call 1 (.addCommunity ⟨"team", "0b"⟩),
        .lost 0, .call 2 (.getCommunity "team"), .ret 2 (.ok (.community none)),
        .ret 1 (.ok (.boolean false)), .call 3 (.getCommunity "team"),
        .ret 3 (.ok (.community (some ⟨"team", "0a"⟩)))] ∧
      Linearizable (CommunityTable.apply plainHex) .empty s.history s.rows := by
  have ran : (run (storageStep plainHex (.ok .Production)) (.start .empty) overlappingAdds).map
      (·.history) = some
      [.call 0 (.addCommunity ⟨"team", "0a"⟩), .call 1 (.addCommunity ⟨"team", "0b"⟩), .lost 0,
        .call 2 (.getCommunity "team"), .ret 2 (.ok (.community none)), .ret 1 (.ok (.boolean false)),
        .call 3 (.getCommunity "team"), .ret 3 (.ok (.community (some ⟨"team", "0a"⟩)))] := by
    decide +kernel
  obtain ⟨s, isS, isHistory⟩ := Option.map_eq_some_iff.mp ran
  exact ⟨s, isS, isHistory, storage_linearizable plainHex isS⟩

/-! ## What was added stays -/

/-- The team and the chain that a call was given to write. -/
def Operation.gives : Operation → Option (TeamId × String)
  | .addCommunity payload => some (payload.teamId, payload.sigChain)
  | .updateCommunity teamId payload => payload.sigChain.map (teamId, ·)
  | .updateAndFindCommunity teamId payload => payload.sigChain.map (teamId, ·)
  | _ => none

section
variable {codec : HexCodec} {rows : CommunityTable}

open CommunitiesStorageService

theorem payloadToEntityData_ok {payload : CommunityUpdate} {updates : CommunityData} {bytes : Bytes}
    (isData : payloadToEntityData codec payload = .ok updates) (sets : updates.sigChain = some bytes) :
    ∃ text, payload.sigChain = some text ∧ codec.fromHex text = .ok bytes := by
  unfold payloadToEntityData at isData
  split at isData
  · cases isData
    cases sets
  · next text isText =>
    refine ⟨text, isText, ?_⟩
    cases decoded : codec.fromHex text with
    | error e =>
      rw [decoded] at isData
      cases isData
    | ok decodedBytes =>
      rw [decoded] at isData
      cases isData
      cases sets
      rfl

/-- The row that an update leaves has the chain that it was given. -/
theorem updated_gives {teamId : TeamId} {payload : CommunityUpdate} {updates : CommunityData}
    {row : CommunityEntity} (isData : payloadToEntityData codec payload = .ok updates)
    (isRow : rows.updated teamId updates = some row) :
    ∃ text, payload.sigChain.map (teamId, ·) = some (row.id, text) ∧
      codec.fromHex text = .ok row.sigChain := by
  unfold Table.updated at isRow
  split at isRow
  · next sets =>
    obtain ⟨old, isOld, rfl⟩ := Option.map_eq_some_iff.mp isRow
    obtain ⟨bytes, isBytes⟩ := Option.isSome_iff_exists.mp sets
    obtain ⟨text, isText, decodes⟩ := payloadToEntityData_ok isData isBytes
    have isId : old.id = teamId := rows.keyed teamId old isOld
    refine ⟨text, ?_, ?_⟩
    · rw [isText, ← isId]
      rfl
    · rw [decodes]
      simp only [communityRows, isBytes, Option.getD_some]
  · cases isRow

variable (codec rows) in
/-- **What a call does to the table**: nothing, or it writes one row, with the chain that it was
given. -/
theorem apply_cases (op : Operation) :
    (CommunityTable.apply codec op rows).1 = rows ∨
      ∃ row text, (CommunityTable.apply codec op rows).1 = rows.put row ∧
        op.gives = some (row.id, text) ∧ codec.fromHex text = .ok row.sigChain := by
  cases op with
  | addCommunity payload =>
    dsimp only [CommunityTable.apply]
    split
    · exact .inl rfl
    · next entity isEntity =>
      split
      · exact .inl rfl
      · obtain ⟨isId, decodes⟩ := payloadToEntity_ok isEntity
        exact .inr ⟨entity, payload.sigChain, rfl, by rw [isId]; rfl, decodes⟩
  | updateCommunity teamId payload =>
    dsimp only [CommunityTable.apply]
    split
    · exact .inl rfl
    · next updates isData =>
      split
      · exact .inl rfl
      · next row isRow =>
        obtain ⟨text, gives, decodes⟩ := updated_gives isData isRow
        exact .inr ⟨row, text, rfl, gives, decodes⟩
  | updateAndFindCommunity teamId payload =>
    dsimp only [CommunityTable.apply]
    split
    · exact .inl rfl
    · next updates isData =>
      split
      · exact .inl rfl
      · next row isRow =>
        obtain ⟨text, gives, decodes⟩ := updated_gives isData isRow
        exact .inr ⟨row, text, rfl, gives, decodes⟩
  | getCommunity teamId => exact .inl rfl
  | hasCommunity teamId => exact .inl rfl
  | clearRepository => exact .inl rfl

/-- A call that adds a team finds none, and leaves a row with its chain. -/
theorem apply_added {payload : Community}
    (added : (CommunityTable.apply codec (.addCommunity payload) rows).2 = .ok (.boolean true)) :
    rows.row payload.teamId = none ∧
      ∃ row, (CommunityTable.apply codec (.addCommunity payload) rows).1.row payload.teamId = some row ∧
        codec.fromHex payload.sigChain = .ok row.sigChain := by
  dsimp only [CommunityTable.apply] at added ⊢
  split at added
  · cases added
  · next entity isEntity =>
    split at added
    · cases added
    · next absent =>
      obtain ⟨isId, decodes⟩ := payloadToEntity_ok isEntity
      refine ⟨absent, entity, ?_, decodes⟩
      rw [← isId]
      exact Function.update_self ..

/-- The team has a row, with a chain that one of the calls was given. -/
def Holds (codec : HexCodec) (calls : List (Entry Operation (Except StorageError Answer)))
    (teamId : TeamId) (rows : CommunityTable) : Prop :=
  ∃ row, rows.row teamId = some row ∧ ∃ e ∈ calls, ∃ text, e.op.gives = some (teamId, text) ∧
    codec.fromHex text = .ok row.sigChain

theorem Holds.apply {calls : List (Entry Operation (Except StorageError Answer))} {teamId : TeamId}
    {e : Entry Operation (Except StorageError Answer)} (isIn : e ∈ calls)
    (holds : Holds codec calls teamId rows) :
    Holds codec calls teamId (CommunityTable.apply codec e.op rows).1 := by
  rcases apply_cases codec rows e.op with same | ⟨row, text, isPut, gives, decodes⟩
  · rw [same]
    exact holds
  · rw [isPut]
    by_cases isId : row.id = teamId
    · subst isId
      exact ⟨row, Function.update_self .., e, isIn, text, gives, decodes⟩
    · obtain ⟨old, isOld, given⟩ := holds
      exact ⟨old, (Function.update_of_ne (Ne.symm isId) ..).trans isOld, given⟩

/-- Between the call that added the team and a later one, the team keeps a row. -/
theorem holds_after {history : List (Mark Operation (Except StorageError Answer))}
    {order : List (Entry Operation (Except StorageError Answer))} {rows' : CommunityTable} {j : Nat}
    {payload : Community} {e : Entry Operation (Except StorageError Answer)}
    (explains : Linearization (CommunityTable.apply codec) rows history rows' order)
    (sub : List.Sublist [⟨j, .addCommunity payload, .ok (.boolean true)⟩, e] order) :
    ∃ m calls, Holds codec calls payload.teamId m ∧ e.result = (CommunityTable.apply codec e.op m).2 ∧
      ∀ x ∈ calls, List.Sublist [x, e] order := by
  obtain ⟨m, m', between, added, legal, isResult, before⟩ := explains.between sub
  obtain ⟨_, row, isRow, decodes⟩ := apply_added added.symm
  refine ⟨m', _, ?_, isResult, before⟩
  have start : Holds codec (⟨j, .addCommunity payload, .ok (.boolean true)⟩ :: between) payload.teamId
      (CommunityTable.apply codec (.addCommunity payload) m).1 :=
    ⟨row, isRow, _, List.mem_cons_self .., payload.sigChain, rfl, decodes⟩
  exact legal.keeps (fun x isIn _ holds => holds.apply (List.mem_cons_of_mem _ isIn)) start

/-- **What was added stays**, in production: when `addCommunity` answered that a team was added, no other
call answered that for this team; and whoever asks after that is told that the team is there, or gets it
with a chain that was given to a call for this team, made before the answer. -/
theorem added_stays (codec : HexCodec) {s : StorageState} {as : List (DbAction Operation)}
    (ran : run (storageStep codec (.ok .Production)) (.start rows) as = some s) {j : Nat}
    {payload : Community} (isCall : .call j (.addCommunity payload) ∈ s.history)
    (added : .ret j (.ok (.boolean true)) ∈ s.history) :
    (∀ k payload', payload'.teamId = payload.teamId →
      .call k (.addCommunity payload') ∈ s.history → .ret k (.ok (.boolean true)) ∈ s.history →
      k = j) ∧
    (∀ k r, Precedes s.history j k → .call k (.hasCommunity payload.teamId) ∈ s.history →
      .ret k r ∈ s.history → r = .ok (.boolean true)) ∧
    ∀ k r, Precedes s.history j k → .call k (.getCommunity payload.teamId) ∈ s.history →
      .ret k r ∈ s.history →
      ∃ i op text bytes, List.Sublist [.call i op, .ret k r] s.history ∧
        op.gives = some (payload.teamId, text) ∧ codec.fromHex text = .ok bytes ∧
        r = .ok (.community (some ⟨payload.teamId, codec.toHex bytes⟩)) := by
  obtain ⟨order, explains⟩ := linearizable_of_sound program_sound ran
  have isAdded := explains.entry_of_ret isCall added
  refine ⟨fun k payload' isTeam isCall' added' => ?_, fun k r before isCall' isRet => ?_,
    fun k r before isCall' isRet => ?_⟩
  · have isAdded' := explains.entry_of_ret isCall' added'
    by_contra other
    -- the later one of two would have found the row of the earlier one
    rcases sublist_pair_or isAdded isAdded' (fun same => other (congrArg Entry.id same).symm) with
      sub | sub
    · obtain ⟨m, calls, ⟨row, isRow, _⟩, isResult, _⟩ := holds_after explains sub
      rw [← isTeam, (apply_added isResult.symm).1] at isRow
      cases isRow
    · obtain ⟨m, calls, ⟨row, isRow, _⟩, isResult, _⟩ := holds_after explains sub
      rw [isTeam, (apply_added isResult.symm).1] at isRow
      cases isRow
  · have isIn := explains.entry_of_ret isCall' isRet
    have sub := explains.sublist isAdded isIn (fun same => nomatch congrArg Entry.op same) before
    obtain ⟨m, calls, ⟨row, isRow, _⟩, isResult, _⟩ := holds_after explains sub
    refine isResult.trans ?_
    simp only [CommunityTable.apply, isRow, Option.isSome_some]
  · have isIn := explains.entry_of_ret isCall' isRet
    have sub := explains.sublist isAdded isIn (fun same => nomatch congrArg Entry.op same) before
    obtain ⟨m, calls, ⟨row, isRow, e, isGiver, text, gives, decodes⟩, isResult, earlier⟩ :=
      holds_after explains sub
    have isId : row.id = payload.teamId := m.keyed payload.teamId row isRow
    refine ⟨e.id, e.op, text, row.sigChain, explains.called_before (earlier e isGiver) isRet, gives,
      decodes, isResult.trans ?_⟩
    simp only [CommunityTable.apply, isRow, Option.map_some, CommunitiesStorageService.entityToPayload,
      isId]

end

/-- A team is added, another call adds it again, and it is asked for. -/
def addedTwice : List (DbAction Operation) :=
  [.call 0 (.addCommunity ⟨"team", "0a"⟩), .call 1 (.addCommunity ⟨"team", "0b"⟩),
    .perform 0 (.runs []), .perform 1 (.runs []), .perform 0 (.runs []), .perform 0 (.runs []),
    .perform 0 (.runs []), .perform 1 (.runs []), .perform 1 (.runs []), .ret 0, .ret 1,
    .call 2 (.hasCommunity "team"), .perform 2 (.runs []), .perform 2 (.runs []),
    .perform 2 (.runs []), .ret 2]

theorem added_stays_twice :
    ∃ s, run (storageStep plainHex (.ok .Production)) (.start .empty) addedTwice = some s ∧
      s.history = [.call 0 (.addCommunity ⟨"team", "0a"⟩), .call 1 (.addCommunity ⟨"team", "0b"⟩),
        .ret 0 (.ok (.boolean true)), .ret 1 (.ok (.boolean false)), .call 2 (.hasCommunity "team"),
        .ret 2 (.ok (.boolean true))] ∧
      (∀ k payload, payload.teamId = "team" → .call k (.addCommunity payload) ∈ s.history →
        .ret k (.ok (.boolean true)) ∈ s.history → k = 0) ∧
      ∀ k r, Precedes s.history 0 k → .call k (.hasCommunity "team") ∈ s.history →
        .ret k r ∈ s.history → r = .ok (.boolean true) := by
  have ran : (run (storageStep plainHex (.ok .Production)) (.start .empty) addedTwice).map
      (·.history) = some
      [.call 0 (.addCommunity ⟨"team", "0a"⟩), .call 1 (.addCommunity ⟨"team", "0b"⟩),
        .ret 0 (.ok (.boolean true)), .ret 1 (.ok (.boolean false)), .call 2 (.hasCommunity "team"),
        .ret 2 (.ok (.boolean true))] := by
    decide +kernel
  obtain ⟨s, isS, isHistory⟩ := Option.map_eq_some_iff.mp ran
  have isCall : .call 0 (.addCommunity ⟨"team", "0a"⟩) ∈ s.history := by
    rw [isHistory]
    exact List.mem_cons_self ..
  have added : .ret 0 (.ok (.boolean true)) ∈ s.history := by
    rw [isHistory]
    decide
  have stays := added_stays plainHex isS isCall added
  exact ⟨s, isS, isHistory, stays.1, stays.2.1⟩

/-! ## The table of the manager -/

/-- The `communities` table as the manager's machine has it. -/
def CommunityTable.ofStored (stored : TeamId → Option Bytes) : CommunityTable where
  row teamId := (stored teamId).map fun sigChain => ⟨teamId, sigChain⟩
  keyed teamId row isRow := by
    obtain ⟨sigChain, _, rfl⟩ := Option.map_eq_some_iff.mp isRow
    rfl

theorem ofStored_update (stored : TeamId → Option Bytes) (teamId : TeamId) (sigChain : Bytes) :
    CommunityTable.ofStored (Function.update stored teamId (some sigChain)) =
      (CommunityTable.ofStored stored).put ⟨teamId, sigChain⟩ := by
  ext id : 2
  by_cases same : id = teamId
  · subst same
    simp only [CommunityTable.ofStored, Table.put, communityRows, Function.update_self,
      Option.map_some]
  · simp only [CommunityTable.ofStored, Table.put, communityRows, Function.update_of_ne same]

section
variable {codec : HexCodec} {text : String} {sigChain : Bytes}

/-- The insert of `create` is `addCommunity` at one moment: its effect on the table, and its answer. -/
theorem State.addCommunity_apply (s : State Bytes) (k : TaskId) (request : CreateRequest Bytes)
    (team : Team) (isChain : codec.fromHex text = .ok request.sigChain) :
    ∃ stored, (s.addCommunity k request team true).tasks k = .added request team stored ∧
      CommunityTable.apply codec (.addCommunity ⟨request.teamId, text⟩) (.ofStored s.stored) =
        (.ofStored (s.addCommunity k request team true).stored, .ok (.boolean stored)) := by
  have isEntity : CommunitiesStorageService.payloadToEntity codec ⟨request.teamId, text⟩ =
      .ok ⟨request.teamId, request.sigChain⟩ := by
    unfold CommunitiesStorageService.payloadToEntity
    rw [isChain]
    rfl
  cases there : s.stored request.teamId with
  | none =>
    refine ⟨true, ?_, ?_⟩
    · simp only [State.addCommunity, there, State.setTask_tasks]
    · have isNone : (CommunityTable.ofStored s.stored).row request.teamId = none := by
        simp only [CommunityTable.ofStored, there, Option.map_none]
      simp only [CommunityTable.apply, isEntity, isNone, State.addCommunity, there, State.setTask,
        ofStored_update]
  | some old =>
    refine ⟨false, ?_, ?_⟩
    · simp only [State.addCommunity, there, State.setTask_tasks]
    · have isSome : (CommunityTable.ofStored s.stored).row request.teamId =
          some ⟨request.teamId, old⟩ := by
        simp only [CommunityTable.ofStored, there, Option.map_some]
      simp only [CommunityTable.apply, isEntity, isSome, State.addCommunity, there, State.setTask]

/-- A write of an 'update' listener is `updateCommunity` at one moment. -/
theorem State.completeWrite_apply (s : State Bytes) (i : Nat) (teamId : TeamId)
    (isChain : codec.fromHex text = .ok sigChain) :
    (CommunityTable.apply codec (.updateCommunity teamId ⟨some text⟩) (.ofStored s.stored)).1 =
      .ofStored (s.completeWrite i teamId sigChain true).stored := by
  have isData : CommunitiesStorageService.payloadToEntityData codec ⟨some text⟩ =
      .ok ⟨some sigChain⟩ := by
    simp only [CommunitiesStorageService.payloadToEntityData, isChain]
    rfl
  cases there : s.stored teamId with
  | none =>
    have isNone : (CommunityTable.ofStored s.stored).updated teamId ⟨some sigChain⟩ = none := by
      simp only [Table.updated, CommunityTable.ofStored, there, Option.map_none, ite_self]
    simp only [CommunityTable.apply, isData, isNone, State.completeWrite, there, Option.isSome_none,
      Bool.and_false, Bool.false_eq_true, if_false]
  | some old =>
    have isSome : (CommunityTable.ofStored s.stored).updated teamId ⟨some sigChain⟩ =
        some ⟨teamId, sigChain⟩ := by
      simp only [Table.updated, communityRows, CommunityTable.ofStored, there, Option.isSome_some,
        if_true, Option.map_some, Option.getD_some]
    simp only [CommunityTable.apply, isData, isSome, State.completeWrite, there, Option.isSome_some,
      Bool.and_self, if_true, ofStored_update]

end

end QuietStorage.Communities
