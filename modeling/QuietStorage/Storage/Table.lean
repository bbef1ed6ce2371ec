import QuietStorage.Types
import Mathlib.Data.List.Nodup
import Mathlib.Tactic.Common

/-!
# Storage.Table — the `log_entry_sync` table and its counter

The two tables of the log and what the database itself enforces on them, read off the migrations:

* `log_entry_sync` has the primary key `log_entry_sync_pkey` on `id` (`varchar(255)`), the unique
  index `entries_by_syncSeq_idx` on `(community_id, sync_seq)`, and `sync_seq` is a `bigint`;
* `log_entry_sync_counter` has one `bigint` for a community, or no row.

Both unique indexes are fields of `LogEntrySyncTable`, so a table that breaks one cannot be built,
and `insert` answers the violation that the server would. `columns` is the conversion of a
statement's parameters to the types of the columns, with the errors the server raises for a value
that does not fit.

**Not modelled**: running out of disk or memory, a lost connection, the size limit of an index row
(2.7 kB for a community id, which `communities.id`, a `varchar(255)`, is far below), and the rule
that cuts a too long text whose excess is blanks only (an id is a hex string).
-/

set_option autoImplicit false

namespace QuietStorage.Storage

open Lib.JsNumber

/-- The row of the `LogEntrySync` entity. `id` is the hash of the entry. -/
structure LogEntrySync where
  id : String
  communityId : TeamId
  hashedDbId : Option String
  entry : Bytes
  receivedAt : Int
  syncSeq : Bigint
  createdAt : Int
  deriving DecidableEq

/-- The unique indexes of the table. -/
inductive UniqueIndex where
  | log_entry_sync_pkey
  | entries_by_syncSeq_idx
  deriving DecidableEq, Repr

/-- The errors the statements of this module can raise, by their SQLSTATE name. -/
inductive PgError where
  /-- 22021: a text parameter with a NUL character. -/
  | invalidByteSequence
  /-- 22001: a value too long for its `varchar(n)`. -/
  | stringDataRightTruncation
  /-- 22008: a timestamp outside the calendar that its ISO text can name. -/
  | datetimeFieldOverflow
  /-- 22003: a `bigint` result out of range. -/
  | numericValueOutOfRange
  /-- 23505: a unique index already holds the key. -/
  | uniqueViolation (index : UniqueIndex)
  deriving DecidableEq, Repr

/-! ## Columns -/

/-- A text parameter: the server takes every character except NUL. -/
def text (value : String) : Except PgError String :=
  if '\x00' ∈ value.toList then .error .invalidByteSequence else .ok value

/-- `varchar(255)`, the type of `id`. -/
def varchar255 (value : String) : Except PgError String :=
  if 255 < value.length then .error .stringDataRightTruncation else .ok value

/-- `timestamptz` from an ISO text with a four-digit year: 0001-01-01 to 9999-12-31, in
milliseconds since the epoch. -/
def timestamptz (millis : Int) : Except PgError Int :=
  if -62135596800000 ≤ millis ∧ millis ≤ 253402300799999 then .ok millis
  else .error .datetimeFieldOverflow

/-- The last time of a JavaScript `Date`, in milliseconds. The first is its negative. -/
def maxDate : Int := 8640000000000000

/-- The nullable `hashed_db_id`. -/
def nullableText : Option String → Except PgError (Option String)
  | none => .ok none
  | some value => (text value).map some

/-- The parameters of the statement as column values: the row, but for its sequence number. -/
def columns (payload : LogSyncEntry) (createdAt : Int) : Except PgError (Bigint → LogEntrySync) := do
  let communityId ← text payload.communityId
  let id ← varchar255 (← text payload.cid)
  let hashedDbId ← nullableText payload.hashedDbId
  let receivedAt ← timestamptz payload.receivedAt
  let createdAt ← timestamptz createdAt
  return fun syncSeq =>
    { id, communityId, hashedDbId, entry := payload.entry, receivedAt, syncSeq, createdAt }

/-- The row a payload asks for, with the sequence number it was given. -/
def rowOf (payload : LogSyncEntry) (createdAt : Int) (syncSeq : Bigint) : LogEntrySync where
  id := payload.cid
  communityId := payload.communityId
  hashedDbId := payload.hashedDbId
  entry := payload.entry
  receivedAt := payload.receivedAt
  syncSeq := syncSeq
  createdAt := createdAt

/-- Every value of the payload fits the column it is written to. -/
structure Fits (payload : LogSyncEntry) (createdAt : Int) : Prop where
  communityId : '\x00' ∉ payload.communityId.toList
  cid : '\x00' ∉ payload.cid.toList
  cidLength : payload.cid.length ≤ 255
  hashedDbId : ∀ value, payload.hashedDbId = some value → '\x00' ∉ value.toList
  receivedAt : -62135596800000 ≤ payload.receivedAt ∧ payload.receivedAt ≤ 253402300799999
  createdAt : -62135596800000 ≤ createdAt ∧ createdAt ≤ 253402300799999

theorem text_eq_ok {value stored : String} :
    text value = .ok stored ↔ '\x00' ∉ value.toList ∧ stored = value := by
  unfold text
  split
  · next nul => simp only [reduceCtorEq, nul, not_true, false_and]
  · next clean => simp only [Except.ok.injEq, clean, not_false_eq_true, true_and, eq_comm]

theorem varchar255_eq_ok {value stored : String} :
    varchar255 value = .ok stored ↔ value.length ≤ 255 ∧ stored = value := by
  unfold varchar255
  split
  · next long => simp only [reduceCtorEq, false_iff]; omega
  · next short =>
    simp only [Except.ok.injEq, eq_comm, iff_and_self]
    omega

theorem timestamptz_eq_ok {millis stored : Int} :
    timestamptz millis = .ok stored ↔
      (-62135596800000 ≤ millis ∧ millis ≤ 253402300799999) ∧ stored = millis := by
  unfold timestamptz
  split
  · next inRange => simp only [Except.ok.injEq, inRange, and_self, true_and, eq_comm]
  · next outside => simp only [reduceCtorEq, outside, false_and]

theorem nullableText_eq_ok {value stored : Option String} :
    nullableText value = .ok stored ↔
      (∀ v, value = some v → '\x00' ∉ v.toList) ∧ stored = value := by
  cases value with
  | none => simp only [nullableText, Except.ok.injEq, reduceCtorEq, false_implies, implies_true,
      true_and, eq_comm]
  | some v =>
    simp only [nullableText, Option.some.injEq, forall_eq']
    cases converted : text v with
    | error e =>
      have : ¬ '\x00' ∉ v.toList := fun clean =>
        absurd (text_eq_ok.mpr ⟨clean, rfl⟩) (by rw [converted]; simp only [reduceCtorEq,
          not_false_eq_true])
      simp only [Except.map, reduceCtorEq, this, false_and]
    | ok s =>
      obtain ⟨clean, rfl⟩ := text_eq_ok.mp converted
      simp only [Except.map, Except.ok.injEq, clean, not_false_eq_true, true_and, eq_comm]

/-- Peeling a computation apart: a bind that succeeds has a first part that succeeds. -/
theorem bind_eq_ok {ε α β : Type} {x : Except ε α} {f : α → Except ε β} {b : β} :
    (x >>= f) = .ok b ↔ ∃ a, x = .ok a ∧ f a = .ok b := by
  cases x with
  | error e => simp only [bind, Except.bind, reduceCtorEq, false_and, exists_false]
  | ok a => simp only [bind, Except.bind, Except.ok.injEq, exists_eq_left']

/-- **The parameters convert exactly when every value fits**, and then to the row they name. -/
theorem columns_eq_ok {payload : LogSyncEntry} {createdAt : Int} {row : Bigint → LogEntrySync} :
    columns payload createdAt = .ok row ↔
      Fits payload createdAt ∧ row = rowOf payload createdAt := by
  unfold columns
  constructor
  · intro converted
    obtain ⟨communityId, community, afterCommunity⟩ := bind_eq_ok.mp converted
    obtain ⟨cid, cidText, afterCid⟩ := bind_eq_ok.mp afterCommunity
    obtain ⟨id, idShort, afterId⟩ := bind_eq_ok.mp afterCid
    obtain ⟨hashedDbId, hashed, afterHashed⟩ := bind_eq_ok.mp afterId
    obtain ⟨receivedAt, received, afterReceived⟩ := bind_eq_ok.mp afterHashed
    obtain ⟨created, createdOk, made⟩ := bind_eq_ok.mp afterReceived
    obtain ⟨communityClean, rfl⟩ := text_eq_ok.mp community
    obtain ⟨cidClean, rfl⟩ := text_eq_ok.mp cidText
    obtain ⟨cidLength, rfl⟩ := varchar255_eq_ok.mp idShort
    obtain ⟨hashedClean, rfl⟩ := nullableText_eq_ok.mp hashed
    obtain ⟨receivedRange, rfl⟩ := timestamptz_eq_ok.mp received
    obtain ⟨createdRange, rfl⟩ := timestamptz_eq_ok.mp createdOk
    cases made
    exact ⟨⟨communityClean, cidClean, cidLength, hashedClean, receivedRange, createdRange⟩, rfl⟩
  · rintro ⟨fits, rfl⟩
    apply bind_eq_ok.mpr
    refine ⟨_, text_eq_ok.mpr ⟨fits.communityId, rfl⟩, ?_⟩
    apply bind_eq_ok.mpr
    refine ⟨_, text_eq_ok.mpr ⟨fits.cid, rfl⟩, ?_⟩
    apply bind_eq_ok.mpr
    refine ⟨_, varchar255_eq_ok.mpr ⟨fits.cidLength, rfl⟩, ?_⟩
    apply bind_eq_ok.mpr
    refine ⟨_, nullableText_eq_ok.mpr ⟨fits.hashedDbId, rfl⟩, ?_⟩
    apply bind_eq_ok.mpr
    refine ⟨_, timestamptz_eq_ok.mpr ⟨fits.receivedAt, rfl⟩, ?_⟩
    apply bind_eq_ok.mpr
    exact ⟨_, timestamptz_eq_ok.mpr ⟨fits.createdAt, rfl⟩, rfl⟩

/-! ## Tables -/

/-- The committed rows of `log_entry_sync`, in the order they were committed. -/
structure LogEntrySyncTable where
  rows : List LogEntrySync
  log_entry_sync_pkey : (rows.map (·.id)).Nodup
  entries_by_syncSeq_idx : (rows.map fun r => (r.communityId, r.syncSeq)).Nodup

namespace LogEntrySyncTable

/-- The table before the first write. -/
def empty : LogEntrySyncTable := ⟨[], List.nodup_nil, List.nodup_nil⟩

/-- `insert into log_entry_sync`: the unique indexes are checked in the order they were created. -/
def insert (t : LogEntrySyncTable) (row : LogEntrySync) : Except PgError LogEntrySyncTable :=
  if idUsed : row.id ∈ t.rows.map (·.id) then
    .error (.uniqueViolation .log_entry_sync_pkey)
  else if seqUsed : (row.communityId, row.syncSeq) ∈ t.rows.map (fun r => (r.communityId, r.syncSeq))
  then
    .error (.uniqueViolation .entries_by_syncSeq_idx)
  else
    .ok
      { rows := t.rows ++ [row]
        log_entry_sync_pkey := by
          rw [List.map_append, List.map_singleton]
          exact List.nodup_append_comm.mp (List.nodup_cons.mpr ⟨idUsed, t.log_entry_sync_pkey⟩)
        entries_by_syncSeq_idx := by
          rw [List.map_append, List.map_singleton]
          exact List.nodup_append_comm.mp
            (List.nodup_cons.mpr ⟨seqUsed, t.entries_by_syncSeq_idx⟩) }

/-- `findOne(id)`: the row stored under an id, in whichever community. -/
def findOne (t : LogEntrySyncTable) (id : String) : Option LogEntrySync :=
  t.rows.find? fun r => decide (r.id = id)

variable {t : LogEntrySyncTable}

/-- What an insert that succeeds did: the keys were free and the row was appended. -/
theorem insert_eq_ok {row : LogEntrySync} {t' : LogEntrySyncTable}
    (inserted : t.insert row = .ok t') :
    t'.rows = t.rows ++ [row] ∧ ∀ r ∈ t.rows, r.id ≠ row.id := by
  unfold insert at inserted
  split at inserted
  · cases inserted
  · next free =>
    split at inserted
    · cases inserted
    · cases inserted
      exact ⟨rfl, fun r mem same => free (List.mem_map.mpr ⟨r, mem, same⟩)⟩

/-- What an insert that fails says: the id is a stored row's, or the community already has a row
with the sequence number. -/
theorem insert_eq_error {row : LogEntrySync} {e : PgError} (refused : t.insert row = .error e) :
    (e = .uniqueViolation .log_entry_sync_pkey ∧ ∃ r ∈ t.rows, r.id = row.id) ∨
    (e = .uniqueViolation .entries_by_syncSeq_idx ∧
      ∃ r ∈ t.rows, r.communityId = row.communityId ∧ r.syncSeq = row.syncSeq) := by
  unfold insert at refused
  split at refused
  · next used =>
    cases refused
    obtain ⟨r, mem, same⟩ := List.mem_map.mp used
    exact .inl ⟨rfl, r, mem, same⟩
  · split at refused
    · next used =>
      cases refused
      obtain ⟨r, mem, same⟩ := List.mem_map.mp used
      exact .inr ⟨rfl, r, mem, congrArg Prod.fst same, congrArg Prod.snd same⟩
    · cases refused

/-- A community and a sequence number name at most one row. -/
theorem eq_of_syncSeq {a b : LogEntrySync} (ha : a ∈ t.rows) (hb : b ∈ t.rows)
    (community : a.communityId = b.communityId) (seq : a.syncSeq = b.syncSeq) : a = b :=
  List.inj_on_of_nodup_map t.entries_by_syncSeq_idx ha hb (Prod.ext community seq)

end LogEntrySyncTable

/-- The committed contents of the two tables. -/
structure Database where
  logEntrySync : LogEntrySyncTable
  /-- `next_sync_seq` of the counter row of a community, when it has one. -/
  logEntrySyncCounter : TeamId → Option Bigint

namespace Database

/-- The database the migrations leave behind. -/
def empty : Database := ⟨.empty, fun _ => none⟩

/-- The committed rows of a community. -/
def rowsOf (db : Database) (communityId : TeamId) : List LogEntrySync :=
  db.logEntrySync.rows.filter fun r => decide (r.communityId = communityId)

theorem mem_rowsOf {db : Database} {communityId : TeamId} {r : LogEntrySync} :
    r ∈ db.rowsOf communityId ↔ r ∈ db.logEntrySync.rows ∧ r.communityId = communityId := by
  simp only [rowsOf, List.mem_filter, decide_eq_true_eq]

/-- The rows were received at times that a `Date` has. -/
def Dated (db : Database) : Prop :=
  ∀ r ∈ db.logEntrySync.rows, -maxDate ≤ r.receivedAt ∧ r.receivedAt ≤ maxDate

instance (db : Database) : Decidable db.Dated :=
  inferInstanceAs (Decidable (∀ r ∈ db.logEntrySync.rows, _))

/-- **Sequence numbers are distinct in a community**: what the unique index says of its rows. -/
theorem rowsOf_syncSeq_nodup (db : Database) (communityId : TeamId) :
    ((db.rowsOf communityId).map fun r => (r.syncSeq : Int)).Nodup := by
  have rowsNodup : db.logEntrySync.rows.Nodup := List.Nodup.of_map _ db.logEntrySync.log_entry_sync_pkey
  refine List.Nodup.map_on (fun a ha b hb same => ?_) (rowsNodup.filter _)
  have ha := mem_rowsOf.mp ha
  have hb := mem_rowsOf.mp hb
  exact LogEntrySyncTable.eq_of_syncSeq ha.1 hb.1 (ha.2.trans hb.2.symm) (Subtype.ext same)

end Database

end QuietStorage.Storage
