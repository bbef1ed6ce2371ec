import QuietStorage.Storage.Table
import QuietStorage.Lib.Cursor

/-!
# Storage.Queries — reading the log of a community

The read side of `LogEntrySyncStorageService`: the plain read after a sequence number, the page of a
filtered read, and the sequence number a timestamp resolves to. A query is one statement, so it sees
one database.

The filtered rows of a community, in the order of their sequence numbers, are its `log`; a query that
starts after a number is the log beyond that cursor (`matching_eq_after`), so what the modules above
prove of pages they take from `Lib.Cursor`.

A parameter that the database cannot bind (a text with a NUL character, a number that is no
`bigint`, a time that is written with more than four digits of the year) makes the query throw, which
is `none`. A time that no `Date` has is not even written: it is `null`, which binds, and which no row
compares with.
-/

set_option autoImplicit false

namespace QuietStorage.Storage

open Lib Lib.JsNumber

/-- The key of the log's order. -/
abbrev seqOf (r : LogEntrySync) : Int := r.syncSeq

/-- `orderBy: { syncSeq: 'ASC' }`. -/
def orderBySyncSeq (rows : List LogEntrySync) : List LogEntrySync :=
  rows.insertionSort fun a b => seqOf a ≤ seqOf b

/-- A text the database can bind. -/
def BindsText (value : String) : Prop := '\x00' ∉ value.toList

/-- A number the database can bind to a `bigint`. -/
def BindsBigint (n : Int) : Prop := bigintMin ≤ n ∧ n ≤ bigintMax

/-- `DateTime.fromMillis(millis).toISO()`, as the time it denotes. It is `null` for a time that no `Date`
has. -/
def toISO (millis : Int) : Option Int :=
  if -maxDate ≤ millis ∧ millis ≤ maxDate then some millis else none

@[simp] theorem toISO_eq_some {millis dateTime : Int} :
    toISO millis = some dateTime ↔ (-maxDate ≤ millis ∧ millis ≤ maxDate) ∧ millis = dateTime := by
  simp [toISO]

/-- A time the database can bind, or `null`. -/
def BindsTimestamp (dateTime : Option Int) : Prop :=
  ∀ millis ∈ dateTime, -62135596800000 ≤ millis ∧ millis ≤ 253402300799999

instance (dateTime : Option Int) : Decidable (BindsTimestamp dateTime) :=
  inferInstanceAs (Decidable (∀ millis ∈ dateTime, _))

instance (value : String) : Decidable (BindsText value) :=
  inferInstanceAs (Decidable ('\x00' ∉ value.toList))

instance (n : Int) : Decidable (BindsBigint n) :=
  inferInstanceAs (Decidable (bigintMin ≤ n ∧ n ≤ bigintMax))

/-! ## The plain read -/

/-- `entityToPayload`. -/
def entityToPayload (entity : LogEntrySync) : LogSyncEntry where
  communityId := entity.communityId
  entry := entity.entry
  cid := entity.id
  hashedDbId := entity.hashedDbId
  receivedAt := entity.receivedAt
  syncSeq := some (toSyncSeq entity.syncSeq)

/-- `getLogEntriesForCommunity`. -/
def getLogEntriesForCommunity (db : Database) (communityId : TeamId) (afterSeq : Int) :
    Option (List LogSyncEntry) :=
  if BindsText communityId ∧ BindsBigint afterSeq then
    some ((orderBySyncSeq (db.logEntrySync.rows.filter fun r =>
      decide (r.communityId = communityId) && decide (afterSeq < r.syncSeq))).map entityToPayload)
  else
    none

/-! ## The timestamp read -/

/-- `orderBy: { receivedAt: 'DESC', syncSeq: 'DESC' }`: `a` does not come after `b`. -/
def receivedFirst (a b : LogEntrySync) : Prop :=
  b.receivedAt < a.receivedAt ∨ (b.receivedAt = a.receivedAt ∧ b.syncSeq.val ≤ a.syncSeq.val)

instance : DecidableRel receivedFirst := fun a b =>
  inferInstanceAs (Decidable (b.receivedAt < a.receivedAt ∨
    (b.receivedAt = a.receivedAt ∧ b.syncSeq.val ≤ a.syncSeq.val)))

/-- `resolveSyncSeqForTimestamp`. -/
def resolveSyncSeqForTimestamp (db : Database) (communityId : TeamId) (timestamp : Int) :
    Option Int :=
  if timestamp ≤ 0 then some 0
  else
    let startDateTime := toISO timestamp
    if BindsText communityId ∧ BindsTimestamp startDateTime then
      -- no row is at or before `null`
      match ((db.logEntrySync.rows.filter fun r => decide (r.communityId = communityId) &&
          startDateTime.any fun bound => decide (r.receivedAt ≤ bound)).insertionSort
            receivedFirst).head? with
      | some existing => some (toSyncSeq existing.syncSeq)
      | none => some 0
    else
      none

/-! ## The page read -/

/-- The `filter` argument of `getPaginatedLogEntriesBySyncSeq`. -/
structure SyncSeqFilter where
  limit : Option Nat := none
  startSeq : Int
  endSeq : Option Int := none
  hashedDbId : Option String := none
  hash : Option String := none

namespace SyncSeqFilter

/-- The conditions on a row but for `startSeq`. -/
def selects (f : SyncSeqFilter) (communityId : TeamId) (r : LogEntrySync) : Bool :=
  f.hash.all (fun hash => decide (r.id = hash)) &&
  decide (r.communityId = communityId) &&
  f.hashedDbId.all (fun hashedDbId => decide (r.hashedDbId = some hashedDbId)) &&
  f.endSeq.all (fun endSeq => decide (seqOf r ≤ endSeq))

/-- Every parameter can be bound. -/
def Binds (f : SyncSeqFilter) (communityId : TeamId) : Prop :=
  BindsText communityId ∧ BindsBigint f.startSeq ∧ (∀ n, f.endSeq = some n → BindsBigint n) ∧
    (∀ v, f.hashedDbId = some v → BindsText v) ∧ ∀ v, f.hash = some v → BindsText v

instance (f : SyncSeqFilter) (communityId : TeamId) : Decidable (f.Binds communityId) := by
  unfold Binds
  infer_instance

end SyncSeqFilter

/-- One row of a page. -/
structure PageItem where
  id : String
  syncSeq : Int
  entry : Bytes
  deriving DecidableEq

structure Page where
  items : List PageItem
  hasNextPage : Bool

/-- The row as the page gives it. -/
def toItem (r : LogEntrySync) : PageItem where
  id := r.id
  syncSeq := toSyncSeq r.syncSeq
  entry := r.entry

/-- The rows a filter matches, in order. -/
def matching (db : Database) (communityId : TeamId) (f : SyncSeqFilter) : List LogEntrySync :=
  orderBySyncSeq (db.logEntrySync.rows.filter fun r =>
    f.selects communityId r && decide (f.startSeq < seqOf r))

/-- `getPaginatedLogEntriesBySyncSeq`: one row more than the page is read, to know whether another
page follows. -/
def getPaginatedLogEntriesBySyncSeq (db : Database) (communityId : TeamId) (f : SyncSeqFilter) :
    Option Page :=
  if f.Binds communityId then
    let pageSize := min (f.limit.getD 200) 200
    let rows := (matching db communityId f).take (pageSize + 1)
    some { items := (rows.take pageSize).map toItem, hasNextPage := decide (pageSize < rows.length) }
  else
    none

/-! ## The log a filter reads -/

/-- The rows a filter selects from any start, in order. -/
def log (db : Database) (communityId : TeamId) (f : SyncSeqFilter) : List LogEntrySync :=
  orderBySyncSeq (db.logEntrySync.rows.filter (f.selects communityId))

theorem mem_orderBySyncSeq {rows : List LogEntrySync} {r : LogEntrySync} :
    r ∈ orderBySyncSeq rows ↔ r ∈ rows :=
  (List.perm_insertionSort _ rows).mem_iff

/-- A plain read returns entries of the community only. -/
theorem community_of_plain {db : Database} {c : TeamId} {afterSeq : Int}
    {entries : List LogSyncEntry} (read : getLogEntriesForCommunity db c afterSeq = some entries) :
    ∀ e ∈ entries, e.communityId = c := by
  unfold getLogEntriesForCommunity at read
  split at read
  · cases read
    intro e mem
    obtain ⟨r, isRow, rfl⟩ := List.mem_map.mp mem
    have selected := (List.mem_filter.mp (mem_orderBySyncSeq.mp isRow)).2
    exact of_decide_eq_true (Bool.and_eq_true_iff.mp selected).1
  · cases read

theorem community_of_selects {f : SyncSeqFilter} {c : TeamId} {r : LogEntrySync}
    (selected : f.selects c r = true) : r.communityId = c := by
  simp only [SyncSeqFilter.selects, Bool.and_eq_true, decide_eq_true_eq] at selected
  exact selected.1.1.2

theorem mem_log {db : Database} {c : TeamId} {f : SyncSeqFilter} {r : LogEntrySync} :
    r ∈ log db c f ↔ r ∈ db.logEntrySync.rows ∧ f.selects c r = true := by
  rw [log, mem_orderBySyncSeq, List.mem_filter]

theorem mem_matching {db : Database} {c : TeamId} {f : SyncSeqFilter} {r : LogEntrySync} :
    r ∈ matching db c f ↔
      r ∈ db.logEntrySync.rows ∧ f.selects c r = true ∧ f.startSeq < seqOf r := by
  rw [matching, mem_orderBySyncSeq, List.mem_filter, Bool.and_eq_true, decide_eq_true_eq]

/-- Rows of one community in the order of their numbers are a log. -/
theorem ascending_orderBySyncSeq (db : Database) (c : TeamId) {p : LogEntrySync → Bool}
    (ofCommunity : ∀ r, p r = true → r.communityId = c) :
    Cursor.Ascending seqOf (orderBySyncSeq (db.logEntrySync.rows.filter p)) := by
  refine Cursor.ascending_insertionSort ?_
  have inCommunity : (db.logEntrySync.rows.filter p).Sublist (db.rowsOf c) := by
    have : db.logEntrySync.rows.filter p = (db.rowsOf c).filter p := by
      rw [Database.rowsOf, List.filter_filter]
      refine List.filter_congr fun r _ => ?_
      cases selected : p r with
      | false => rfl
      | true => rw [ofCommunity r selected, decide_eq_true rfl]; rfl
    rw [this]
    exact List.filter_sublist
  exact (db.rowsOf_syncSeq_nodup c).sublist (inCommunity.map _)

theorem ascending_log (db : Database) (c : TeamId) (f : SyncSeqFilter) :
    Cursor.Ascending seqOf (log db c f) :=
  ascending_orderBySyncSeq db c fun _ => community_of_selects

/-- **A query is the log beyond its start.** -/
theorem matching_eq_after (db : Database) (c : TeamId) (f : SyncSeqFilter) :
    matching db c f = Cursor.after seqOf f.startSeq (log db c f) := by
  refine Cursor.Ascending.ext ?_ ((ascending_log db c f).after _) ?_
  · refine ascending_orderBySyncSeq db c fun r selected => ?_
    exact community_of_selects (Bool.and_eq_true_iff.mp selected).1
  · intro r
    rw [mem_matching, Cursor.mem_after, mem_log, and_assoc]

/-- A page is the first rows beyond the start, and it says whether any is left. -/
theorem page_spec {db : Database} {c : TeamId} {f : SyncSeqFilter} {page : Page}
    (read : getPaginatedLogEntriesBySyncSeq db c f = some page) :
    ∃ rows rest, Cursor.after seqOf f.startSeq (log db c f) = rows ++ rest ∧
      page.items = rows.map toItem ∧ page.hasNextPage = !rest.isEmpty ∧
      rows.length = min (min (f.limit.getD 200) 200) (matching db c f).length := by
  unfold getPaginatedLogEntriesBySyncSeq at read
  split at read
  · cases read
    generalize min (f.limit.getD 200) 200 = pageSize
    refine ⟨(matching db c f).take pageSize, (matching db c f).drop pageSize, ?_, ?_, ?_, ?_⟩
    · rw [List.take_append_drop, matching_eq_after]
    · rw [List.take_take, Nat.min_eq_left (Nat.le_succ pageSize)]
    · show decide _ = _
      rw [List.length_take, Bool.eq_iff_iff, decide_eq_true_eq, Bool.not_eq_true',
        List.isEmpty_eq_false_iff, ne_eq, List.drop_eq_nil_iff]
      omega
    · exact List.length_take
  · cases read

end QuietStorage.Storage
