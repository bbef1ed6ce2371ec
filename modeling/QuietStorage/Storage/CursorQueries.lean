import QuietStorage.Storage.Queries
import QuietStorage.Storage.Migration
import Mathlib.Data.List.DropRight
import Mathlib.Order.WithBot

/-!
# Storage.CursorQueries — the page read of old clients

`getPaginatedLogEntries`: the rows of a community between two times, by the time they were received
and by id where that is equal (`receivedLog`), a page at a time. A page starts or ends at a cursor,
which is the text of a `Position` in that order; how a position is written as a text is the business
of the ORM and a parameter here (`CursorCodec`).

`findByCursor` answers as the ORM documents. Forward, the rows are those strictly after the cursor and
`hasNextPage` says whether more follow the page; backward, they are the last of those strictly before
it, and `hasNextPage` is whether a cursor was given at all.
-/

set_option autoImplicit false

namespace QuietStorage.Storage

open Lib

/-- A place in the order `receivedAt: 'ASC', id: 'ASC'`. -/
structure Position where
  receivedAt : Int
  id : String
  deriving DecidableEq, Repr

def positionOf (r : LogEntrySync) : Position where
  receivedAt := r.receivedAt
  id := r.id

/-- How the ORM writes a position as a cursor, and reads one. A text that is no cursor, or that has a
value which the database cannot bind, reads as nothing, and the query throws. -/
structure CursorCodec where
  encode : Position → String
  decode : String → Option Position

/-- The cursors of the rows denote them. -/
def CursorCodec.Reads (codec : CursorCodec) (rows : List LogEntrySync) : Prop :=
  ∀ r ∈ rows, codec.decode (codec.encode (positionOf r)) = some (positionOf r)

instance (codec : CursorCodec) (rows : List LogEntrySync) : Decidable (codec.Reads rows) :=
  inferInstanceAs (Decidable (∀ r ∈ rows, _))

/-- `page.from(item)`. -/
def CursorCodec.cursorOf (codec : CursorCodec) (item : LogEntrySync) : String :=
  codec.encode (positionOf item)

/-- The place a cursor argument names: none without a cursor. -/
def CursorCodec.place (codec : CursorCodec) : Option String → Option (Option Position)
  | none => some none
  | some cursor => (codec.decode cursor).map some

/-- The `filter` argument of `getPaginatedLogEntries`. The caller always gives the limit. -/
structure TimestampFilter where
  limit : Nat
  startTs : Int
  endTs : Option Int := none
  hashedDbId : Option String := none
  hash : Option String := none
  direction : Option Direction := none

namespace TimestampFilter

/-- `startDateTime`. -/
def startDateTime (f : TimestampFilter) : Option Int := toISO f.startTs

/-- `endDateTime`. -/
def endDateTime (f : TimestampFilter) : Option Int := f.endTs.bind toISO

/-- The conditions on a row. No row is at or after `null`, and an end that is `null` is left out. -/
def selects (f : TimestampFilter) (communityId : TeamId) (r : LogEntrySync) : Bool :=
  f.hash.all (fun hash => decide (r.id = hash)) &&
  decide (r.communityId = communityId) &&
  f.hashedDbId.all (fun hashedDbId => decide (r.hashedDbId = some hashedDbId)) &&
  (f.startDateTime.any (fun startDateTime => decide (startDateTime ≤ r.receivedAt)) &&
    f.endDateTime.all fun endDateTime => decide (r.receivedAt ≤ endDateTime))

/-- Every parameter can be bound. -/
def Binds (f : TimestampFilter) (communityId : TeamId) : Prop :=
  BindsText communityId ∧ BindsTimestamp f.startDateTime ∧ BindsTimestamp f.endDateTime ∧
    (∀ v, f.hashedDbId = some v → BindsText v) ∧ ∀ v, f.hash = some v → BindsText v

instance (f : TimestampFilter) (communityId : TeamId) : Decidable (f.Binds communityId) := by
  unfold Binds
  infer_instance

end TimestampFilter

/-- `Cursor<LogEntrySyncEntity>`, but for the fields that nothing reads. -/
structure CursorPage where
  items : List LogEntrySync
  hasNextPage : Bool
  endCursor : Option String

section
variable {κ : Type} [LinearOrder κ] (collate : String ↪ κ) (codec : CursorCodec)

/-- The order of the positions. -/
def Position.key (p : Position) : Int ×ₗ κ := receivedKey collate p.receivedAt p.id

/-- The key of a row in the order of positions. -/
abbrev timeOf (r : LogEntrySync) : Int ×ₗ κ := (positionOf r).key collate

/-- The rows that a filter selects, in the order of positions. -/
def receivedLog (db : Database) (communityId : TeamId) (f : TimestampFilter) : List LogEntrySync :=
  (db.logEntrySync.rows.filter (f.selects communityId)).insertionSort fun a b =>
    timeOf collate a ≤ timeOf collate b

/-- The bound of `after`: everything is beyond none. -/
def lowerBound : Option Position → WithBot (Int ×ₗ κ)
  | none => ⊥
  | some place => place.key collate

/-- The bound of `before`. -/
def upperBound : Option Position → WithTop (Int ×ₗ κ)
  | none => ⊤
  | some place => place.key collate

/-- The rows strictly after a place; all of them without one. -/
def rowsAfter (place : Option Position) (rows : List LogEntrySync) : List LogEntrySync :=
  Cursor.after (fun r => (timeOf collate r : WithBot (Int ×ₗ κ))) (lowerBound collate place) rows

/-- The rows strictly before a place; all of them without one. -/
def rowsBefore (place : Option Position) (rows : List LogEntrySync) : List LogEntrySync :=
  Cursor.before (fun r => (timeOf collate r : WithTop (Int ×ₗ κ))) (upperBound collate place) rows

/-- `findByCursor` with `first` and `after`. -/
def findByCursorForward (rows : List LogEntrySync) (first : Nat) (after : Option Position) :
    CursorPage where
  items := (rowsAfter collate after rows).take first
  hasNextPage := decide (first < (rowsAfter collate after rows).length)
  endCursor := ((rowsAfter collate after rows).take first).getLast?.map codec.cursorOf

/-- `findByCursor` with `last` and `before`. -/
def findByCursorBackward (rows : List LogEntrySync) (last : Nat) (before : Option Position) :
    CursorPage where
  items := (rowsBefore collate before rows).rtake last
  hasNextPage := before.isSome
  endCursor := ((rowsBefore collate before rows).rtake last).getLast?.map codec.cursorOf

/-- `getPaginatedLogEntries`. -/
def getPaginatedLogEntries (db : Database) (communityId : TeamId) (f : TimestampFilter)
    (cursor : Option String) : Option CursorPage :=
  if f.Binds communityId then
    match f.direction with
    | some .backward => (codec.place cursor).map fun before =>
      findByCursorBackward collate codec (receivedLog collate db communityId f) f.limit before
    | _ => (codec.place cursor).map fun after =>
      findByCursorForward collate codec (receivedLog collate db communityId f) f.limit after
  else
    none

/-! ## The log in the order of positions -/

theorem selects_iff {f : TimestampFilter} {c : TeamId} {r : LogEntrySync} :
    f.selects c r = true ↔
      r.communityId = c ∧ (∃ startDateTime ∈ f.startDateTime, startDateTime ≤ r.receivedAt) ∧
        (∀ endDateTime ∈ f.endDateTime, r.receivedAt ≤ endDateTime) ∧
        (∀ hash, f.hash = some hash → r.id = hash) ∧
        ∀ hashedDbId, f.hashedDbId = some hashedDbId → r.hashedDbId = some hashedDbId := by
  simp only [TimestampFilter.selects, Bool.and_eq_true, decide_eq_true_eq, Option.all_eq_true,
    Option.any_eq_true, Option.mem_def]
  tauto

variable {collate codec}

theorem read_forward {db : Database} {c : TeamId} {f : TimestampFilter} {cursor : Option String}
    {place : Option Position} (forward : f.direction ≠ some .backward) (binds : f.Binds c)
    (placed : codec.place cursor = some place) :
    getPaginatedLogEntries collate codec db c f cursor =
      some (findByCursorForward collate codec (receivedLog collate db c f) f.limit place) := by
  rw [getPaginatedLogEntries, if_pos binds, placed]
  cases direction : f.direction with
  | none => rfl
  | some d =>
    cases d with
    | forward => rfl
    | backward => exact absurd direction forward

theorem read_backward {db : Database} {c : TeamId} {f : TimestampFilter} {cursor : Option String}
    {place : Option Position} (backward : f.direction = some .backward) (binds : f.Binds c)
    (placed : codec.place cursor = some place) :
    getPaginatedLogEntries collate codec db c f cursor =
      some (findByCursorBackward collate codec (receivedLog collate db c f) f.limit place) := by
  rw [getPaginatedLogEntries, if_pos binds, placed, backward]
  rfl

theorem mem_receivedLog {db : Database} {c : TeamId} {f : TimestampFilter} {r : LogEntrySync} :
    r ∈ receivedLog collate db c f ↔ r ∈ db.logEntrySync.rows ∧ f.selects c r = true := by
  rw [receivedLog, (List.perm_insertionSort _ _).mem_iff, List.mem_filter]

theorem ascending_receivedLog (db : Database) (c : TeamId) (f : TimestampFilter) :
    Cursor.Ascending (timeOf collate) (receivedLog collate db c f) := by
  apply Cursor.ascending_insertionSort
  apply List.Nodup.map_on
  · intro a ha b hb same
    have sameId : a.id = b.id := by
      simpa [timeOf, Position.key, receivedKey, positionOf] using
        (Prod.mk.inj (toLex.injective same)).2
    exact List.inj_on_of_nodup_map db.logEntrySync.log_entry_sync_pkey (List.mem_filter.mp ha).1
      (List.mem_filter.mp hb).1 sameId
  · exact db.logEntrySync.log_entry_sync_pkey.of_map.filter _

@[simp] theorem mem_rowsAfter {place : Option Position} {rows : List LogEntrySync} {r : LogEntrySync} :
    r ∈ rowsAfter collate place rows ↔ r ∈ rows ∧ ∀ p ∈ place, p.key collate < timeOf collate r := by
  cases place <;> simp [rowsAfter, lowerBound]

@[simp] theorem mem_rowsBefore {place : Option Position} {rows : List LogEntrySync}
    {r : LogEntrySync} :
    r ∈ rowsBefore collate place rows ↔ r ∈ rows ∧ ∀ p ∈ place, timeOf collate r < p.key collate := by
  cases place <;> simp [rowsBefore, upperBound]

@[simp] theorem rowsAfter_none (rows : List LogEntrySync) : rowsAfter collate none rows = rows := by
  simp [rowsAfter, lowerBound, Cursor.after]

@[simp] theorem rowsBefore_none (rows : List LogEntrySync) : rowsBefore collate none rows = rows := by
  simp [rowsBefore, upperBound, Cursor.before]

/-- Going on from the last row of a front leaves what was after the front. -/
theorem rowsAfter_last {rows front rest : List LogEntrySync} {last : LogEntrySync}
    (ascending : Cursor.Ascending (timeOf collate) rows) {place : Option Position}
    (split : rowsAfter collate place rows = front ++ rest) (isLast : front.getLast? = some last) :
    rowsAfter collate (some (positionOf last)) rows = rest :=
  (Cursor.page_eq_window (ascending.comp WithBot.coe_strictMono) split isLast).2.1.symm

/-- A read that answers could bind its parameters and read its cursor. -/
theorem placed_of_read {db : Database} {c : TeamId} {f : TimestampFilter} {cursor : Option String}
    {page : CursorPage} (read : getPaginatedLogEntries collate codec db c f cursor = some page) :
    f.Binds c ∧ ∃ place, codec.place cursor = some place := by
  unfold getPaginatedLogEntries at read
  split at read
  · next binds =>
    refine ⟨binds, ?_⟩
    split at read <;>
    · obtain ⟨place, placed, -⟩ := Option.map_eq_some_iff.mp read
      exact ⟨place, placed⟩
  · cases read

variable (collate codec) in
/-- A forward page is the first rows after the place, and says whether any is left. -/
theorem forward_spec (rows : List LogEntrySync) (first : Nat) (after : Option Position) :
    ∃ rest, rowsAfter collate after rows =
        (findByCursorForward collate codec rows first after).items ++ rest ∧
      (findByCursorForward collate codec rows first after).hasNextPage = !rest.isEmpty := by
  refine ⟨(rowsAfter collate after rows).drop first, (List.take_append_drop _ _).symm, ?_⟩
  rw [findByCursorForward, Bool.eq_iff_iff, decide_eq_true_eq, Bool.not_eq_true',
    List.isEmpty_eq_false_iff, ne_eq, List.drop_eq_nil_iff]
  omega

variable (collate codec) in
/-- A backward page is the last rows before the place. -/
theorem backward_spec (rows : List LogEntrySync) (last : Nat) (before : Option Position) :
    ∃ dropped, rowsBefore collate before rows =
        dropped ++ (findByCursorBackward collate codec rows last before).items ∧
      ((rowsBefore collate before rows).length ≤ last ↔ dropped = []) := by
  refine ⟨(rowsBefore collate before rows).take ((rowsBefore collate before rows).length - last),
    (List.take_append_drop _ _).symm, ?_⟩
  rw [List.take_eq_nil_iff, ← List.length_eq_zero_iff]
  omega

/-- Going on before a row that is before a place leaves fewer rows. -/
theorem length_rowsBefore_lt {rows : List LogEntrySync} {place : Option Position} {r : LogEntrySync}
    (before : r ∈ rowsBefore collate place rows) :
    (rowsBefore collate (some (positionOf r)) rows).length < (rowsBefore collate place rows).length :=
  Cursor.length_before_lt before

/-- What lies before a row that is before a place lies before the place. -/
theorem mem_rowsBefore_trans {rows : List LogEntrySync} {place : Option Position}
    {r a : LogEntrySync} (before : r ∈ rowsBefore collate place rows)
    (earlier : a ∈ rowsBefore collate (some (positionOf r)) rows) :
    a ∈ rowsBefore collate place rows := by
  rw [mem_rowsBefore] at *
  refine ⟨earlier.1, fun p isPlace => ?_⟩
  exact lt_trans (earlier.2 _ rfl) (before.2 p isPlace)

theorem length_receivedLog_le (db : Database) (c : TeamId) (f : TimestampFilter) :
    (receivedLog collate db c f).length ≤ db.logEntrySync.rows.length := by
  rw [receivedLog, List.length_insertionSort]
  exact List.length_filter_le _ _

theorem length_rowsAfter_le (place : Option Position) (rows : List LogEntrySync) :
    (rowsAfter collate place rows).length ≤ rows.length :=
  List.length_filter_le _ _

theorem length_rowsBefore_le (place : Option Position) (rows : List LogEntrySync) :
    (rowsBefore collate place rows).length ≤ rows.length :=
  List.length_filter_le _ _

end

end QuietStorage.Storage
