import QuietStorage.Sync.CursorPull
import QuietStorage.Sync.PullSpec

/-!
# Sync.CursorForward — following the cursor forward

On a table that does not change, a forward response of the cursor pull is a front of the rows that lie
beyond its cursor, within the limits, and `hasNextPage` says exactly whether rows remain
(`forwardCall_spec`). A client that follows the cursor gets every matching row once, in the order of
positions (`cursor_paging_forward`).

A round is `forwardRound_spec`: it takes a front of the rows that remain and is done, or takes a page
and is ready for the next.
-/

set_option autoImplicit false

namespace QuietStorage.Sync

open Lib Storage Packing

section
variable {κ : Type} [LinearOrder κ] {collate : String ↪ κ} {codec : CursorCodec}

/-- The rows that a pull between its two times reads, in the order of positions. -/
abbrev timeLog (collate : String ↪ κ) (db : Database) (payload : LogEntryPullPayload) (startTs : Int) :
    List LogEntrySync :=
  receivedLog collate db payload.teamId (timestampFilter payload startTs)

theorem ascending_timeLog (db : Database) (payload : LogEntryPullPayload) (startTs : Int) :
    Cursor.Ascending (timeOf collate) (timeLog collate db payload startTs) :=
  ascending_receivedLog db payload.teamId _

/-- What a response owes that took `rows` and left `rest`. -/
structure Answers (codec : CursorCodec) (limit : Option Nat) (resolvedStartSeq : Int)
    (rows rest : List LogEntrySync) (st : CursorState) : Prop where
  entries : st.entries = rows
  cursor : ∀ last, rows.getLast? = some last → st.cursor = some (codec.cursorOf last)
  hasNextPage : st.hasNextPage = !rest.isEmpty
  progress : rows ++ rest ≠ [] → rows ≠ []
  limited : ∀ n, limit = some n → rows.length ≤ n
  fits : rows.length ≤ 1 ∨ ∃ last, rows.getLast? = some last ∧
    (rows.map fun r => r.entry.length).sum + cursorMetadataBytes (some (codec.cursorOf last))
      (toSyncSeq last.syncSeq) resolvedStartSeq st.hasNextPage ≤ maxBytes

/-- The variables between two rounds that took `rows` and have `rest` before them. -/
structure Gathered (codec : CursorCodec) (limit : Option Nat) (resolvedStartSeq : Int)
    (rows rest : List LogEntrySync) (st : CursorState) : Prop extends st.Open where
  entries : st.entries = rows
  cursor : ∀ last, rows.getLast? = some last → st.cursor = some (codec.cursorOf last)
  used : st.usedBytes = (rows.map fun r => r.entry.length).sum
  room : (responseLimits codec limit resolvedStartSeq).Room rows.length
  follows : rows ≠ [] → rest ≠ []
  fits : rows.length ≤ 1 ∨ ∃ last, rows.getLast? = some last ∧
    (rows.map fun r => r.entry.length).sum + cursorMetadataBytes (some (codec.cursorOf last))
      (toSyncSeq last.syncSeq) resolvedStartSeq true ≤ maxBytes

/-! ## A round -/

section
variable {limit : Option Nat} {resolvedStartSeq : Int} {rows rest : List LogEntrySync}
  {st : CursorState}

/-- A round that took a front of a page, with the rows it left there and those after the page. -/
theorem answers_fill (gathered : Gathered codec limit resolvedStartSeq rows rest st)
    {more : Bool} {items after : List LogEntrySync} (some_ : items ≠ [])
    (isMore : more = !after.isEmpty) {p : Packed LogEntrySync}
    (sound : (responseLimits codec limit resolvedStartSeq).Sound more st.entries.length st.usedBytes
      items p) :
    Answers codec limit resolvedStartSeq (rows ++ p.taken) (p.rest ++ after)
      (st.fill codec more p) := by
  have hasNextPage : (st.fill codec more p).hasNextPage = !(p.rest ++ after).isEmpty := by
    rw [isMore]
    cases rest_ : p.rest <;> simp [CursorState.fill, rest_]
  have count : st.entries.length = rows.length := congrArg List.length gathered.entries
  refine ⟨congrArg (· ++ p.taken) gathered.entries, ?_, hasNextPage, ?_, ?_, ?_⟩
  · intro last isLast
    rw [List.getLast?_append] at isLast
    cases taken : p.taken.getLast? with
    | none =>
      rw [taken, Option.none_or] at isLast
      simpa [CursorState.fill, lastCursor, taken] using gathered.cursor last isLast
    | some item =>
      rw [taken, Option.some_or] at isLast
      simp [CursorState.fill, lastCursor, taken, Option.some.inj isLast]
  · intro _ none_
    obtain ⟨first, noneTaken⟩ := List.append_eq_nil_iff.mp none_
    exact sound.progress (by rw [count, first]; rfl) some_ noneTaken
  · intro n isLimit
    have := sound.limited n isLimit
    rw [List.length_append]
    omega
  · rw [hasNextPage]
    rcases sound.fits with noneTaken | one | ⟨last, isLast, within⟩
    · have follows : (!(p.rest ++ after).isEmpty) = true := by
        have left_ := sound.split
        rw [noneTaken, List.nil_append] at left_
        simp [← left_, some_]
      rw [follows, noneTaken, List.append_nil]
      exact gathered.fits
    · left
      rw [List.length_append]
      omega
    · right
      refine ⟨last, by rw [List.getLast?_append, isLast, Option.some_or], ?_⟩
      have candidate : (!p.rest.isEmpty || more) = !(p.rest ++ after).isEmpty := by
        rw [isMore]
        cases p.rest <;> simp
      rw [candidate, gathered.used] at within
      rw [List.map_append, List.sum_append]
      exact within

/-- A round that took a page whole, with rows after it, is ready for the next. -/
theorem gathered_fill (gathered : Gathered codec limit resolvedStartSeq rows rest st)
    {more : Bool} {after : List LogEntrySync} {p : Packed LogEntrySync} (next : Option String)
    (answers : Answers codec limit resolvedStartSeq (rows ++ p.taken) (p.rest ++ after)
      (st.fill codec more p))
    (ended : p.stop = .ended) (whole : p.rest = []) (some_ : after ≠ [])
    (room : (responseLimits codec limit resolvedStartSeq).Room (rows ++ p.taken).length) :
    Gathered codec limit resolvedStartSeq (rows ++ p.taken) after
      { st.fill codec more p with nextCursor := next } := by
  have follows : (st.fill codec more p).hasNextPage = true := by
    rw [answers.hasNextPage, whole]
    simpa using some_
  refine ⟨⟨?_, ?_⟩, answers.entries, answers.cursor, ?_, room, fun _ => some_, ?_⟩
  · simp [CursorState.fill, ended]
  · simp [CursorState.fill, ended]
  · simp [CursorState.fill, gathered.used]
  · have fits := answers.fits
    rwa [follows] at fits

/-- **A round takes a front of the rows that remain**, and is done or ready for the next. -/
theorem forwardRound_spec (gathered : Gathered codec limit resolvedStartSeq rows rest st)
    {log : List LogEntrySync} {first : Nat} {after : Option Position}
    (remain : rowsAfter collate after log = rest) (positive : 0 < first) :
    ∃ taken left, rest = taken ++ left ∧
      ((∃ st', cursorRound codec limit resolvedStartSeq
            (findByCursorForward collate codec log first after) st = .done st' ∧
          Answers codec limit resolvedStartSeq (rows ++ taken) left st') ∨
        ∃ st' last, cursorRound codec limit resolvedStartSeq
            (findByCursorForward collate codec log first after) st = .more st' ∧
          Gathered codec limit resolvedStartSeq (rows ++ taken) left st' ∧
          taken.getLast? = some last ∧ st'.nextCursor = some (codec.cursorOf last)) := by
  obtain ⟨left, split, isMore⟩ := forward_spec collate codec log first after
  have ends : (findByCursorForward collate codec log first after).endCursor =
      lastCursor codec (findByCursorForward collate codec log first after).items none := by
    simp [findByCursorForward, lastCursor]
  have front : (findByCursorForward collate codec log first after).items = rest.take first := by
    rw [← remain]
    rfl
  generalize findByCursorForward collate codec log first after = page at split isMore ends front
  rw [remain] at split
  by_cases none_ : page.items = []
  · -- nothing lies beyond the cursor, so nothing was taken before either
    have noRest : rest = [] := by
      rw [none_] at front
      have := (List.take_eq_nil_iff.mp front.symm).resolve_left (by omega)
      exact this
    have noRows : rows = [] := by
      by_contra some_
      exact gathered.follows some_ noRest
    refine ⟨[], [], by rw [noRest]; rfl, .inl ⟨_, round_empty none_, ?_⟩⟩
    subst noRows
    refine ⟨gathered.entries, ?_, rfl, id, fun n _ => Nat.zero_le n, .inl (Nat.zero_le 1)⟩
    intro last isLast
    simp at isLast
  · have count : st.entries.length = rows.length := congrArg List.length gathered.entries
    have sound := Limits.pack_sound (L := responseLimits codec limit resolvedStartSeq)
      page.hasNextPage page.items st.entries.length st.usedBytes (count ▸ gathered.room)
    have answers := answers_fill gathered none_ isMore sound
    have split' : rest = (packPage codec limit resolvedStartSeq page st).taken ++
        ((packPage codec limit resolvedStartSeq page st).rest ++ left) := by
      rw [← List.append_assoc, ← sound.split]
      exact split
    refine ⟨_, _, split', ?_⟩
    by_cases ended : (packPage codec limit resolvedStartSeq page st).stop = .ended
    · obtain ⟨whole, room⟩ := sound.ended ended
      cases follows : page.hasNextPage with
      | false =>
        exact .inl ⟨_, round_last none_ ends gathered.toOpen ended whole follows, answers⟩
      | true =>
        have someLeft : left ≠ [] := by
          rw [follows] at isMore
          simpa using isMore.symm
        have rest_ : (packPage codec limit resolvedStartSeq page st).rest ++ left = left := by
          rw [whole, List.nil_append]
        obtain ⟨last, isLast⟩ : ∃ last, page.items.getLast? = some last :=
          ⟨_, List.getLast?_eq_some_getLast none_⟩
        refine .inr ⟨_, last, round_more none_ ends gathered.toOpen ended follows, ?_, ?_, ?_⟩
        · rw [rest_]
          refine gathered_fill gathered _ answers ended whole someLeft ?_
          rw [List.length_append, ← count]
          exact room
        · rw [sound.taken_eq whole, isLast]
        · simp [ends, lastCursor, isLast]
    · exact .inl ⟨_, round_stopped none_ ends gathered.toOpen ended, answers⟩

end

/-! ## One response -/

/-- The outer loop forward: it ends when it has a round for each row that remains and one more. -/
theorem forwardLoop_spec {db : Database} {payload : LogEntryPullPayload} {startTs : Int}
    (resolvedStartSeq : Int) (forward : payload.direction ≠ some .backward)
    (positive : payload.limit ≠ some 0)
    (binds : (timestampFilter payload startTs).Binds payload.teamId)
    (reads : codec.Reads db.logEntrySync.rows) (rounds : Nat) (st : CursorState)
    {rows rest : List LogEntrySync} {place : Option Position}
    (gathered : Gathered codec payload.limit resolvedStartSeq rows rest st)
    (placed : codec.place st.nextCursor = some place)
    (remain : rowsAfter collate place (timeLog collate db payload startTs) = rest)
    (enough : rest.length < rounds) :
    ∃ st' taken left, rest = taken ++ left ∧
      cursorLoop collate codec db payload startTs resolvedStartSeq rounds st = some st' ∧
      Answers codec payload.limit resolvedStartSeq (rows ++ taken) left st' := by
  induction rounds generalizing st rows rest place with
  | zero => exact absurd enough (Nat.not_lt_zero _)
  | succ rounds ih =>
    have first : 0 < min (payload.limit.getD 200) 200 := pageSize_pos positive
    have read : Storage.getPaginatedLogEntries collate codec db payload.teamId
        (timestampFilter payload startTs) st.nextCursor = some (findByCursorForward collate codec
          (timeLog collate db payload startTs) (min (payload.limit.getD 200) 200) place) :=
      read_forward forward binds placed
    obtain ⟨taken, left, split, round⟩ := forwardRound_spec gathered remain first
    rcases round with ⟨st', done, answers⟩ | ⟨st', last, more, gathered', isLast, next⟩
    · exact ⟨st', taken, left, split, cursorLoop_done rounds read done, answers⟩
    · rw [cursorLoop_more rounds read more]
      have inTable : last ∈ db.logEntrySync.rows := by
        have : last ∈ rowsAfter collate place (timeLog collate db payload startTs) := by
          rw [remain, split]
          exact List.mem_append_left _ (List.mem_of_getLast? isLast)
        exact (mem_receivedLog.mp (mem_rowsAfter.mp this).1).1
      have placed' : codec.place st'.nextCursor = some (some (positionOf last)) := by
        simp [next, CursorCodec.place, CursorCodec.cursorOf, reads last inTable]
      have remain' : rowsAfter collate (some (positionOf last)) (timeLog collate db payload startTs) =
          left := rowsAfter_last (ascending_receivedLog db payload.teamId _) (remain.trans split) isLast
      have shorter : left.length < rounds := by
        have := List.length_pos_of_mem (List.mem_of_getLast? isLast)
        rw [split, List.length_append] at enough
        omega
      obtain ⟨st'', taken', left', split', ran, answers⟩ := ih st' gathered' placed' remain' shorter
      refine ⟨st'', taken ++ taken', left', ?_, ran, ?_⟩
      · rw [split, split', List.append_assoc]
      · rw [← List.append_assoc]
        exact answers

/-- A time that can be bound resolves to a number. -/
theorem exists_resolved {db : Database} {c : TeamId} {timestamp : Int} (team : BindsText c)
    (time : BindsTimestamp (toISO timestamp)) :
    ∃ n, resolveSyncSeqForTimestamp db c timestamp = some n := by
  unfold resolveSyncSeqForTimestamp
  split
  · exact ⟨0, rfl⟩
  · rw [if_pos ⟨team, time⟩]
    split <;> exact ⟨_, rfl⟩

variable (collate) in
/-- **A forward response is a front of the rows beyond its cursor.** -/
theorem forwardCall_spec {db : Database} {payload : LogEntryPullPayload} {startTs : Int}
    {resolvedStartSeq : Int} (forward : payload.direction ≠ some .backward)
    (positive : payload.limit ≠ some 0)
    (binds : (timestampFilter payload startTs).Binds payload.teamId)
    (reads : codec.Reads db.logEntrySync.rows) {cursor : Option String} {place : Option Position}
    (placed : codec.place cursor = some place)
    (resolved : resolveSyncSeqForTimestamp db payload.teamId startTs = some resolvedStartSeq) :
    ∃ st rows rest, callByCursor collate codec db { payload with cursor := cursor } startTs =
        some (resolvedStartSeq, st) ∧
      rowsAfter collate place (timeLog collate db payload startTs) = rows ++ rest ∧
      Answers codec payload.limit resolvedStartSeq rows rest st := by
  have started : Gathered codec payload.limit resolvedStartSeq []
      (rowsAfter collate place (timeLog collate db payload startTs))
      { cursor := cursor, nextCursor := cursor } := by
    refine ⟨⟨rfl, rfl⟩, rfl, ?_, rfl, ?_, fun some_ => absurd rfl some_, .inl (Nat.zero_le 1)⟩
    · intro last isLast
      simp at isLast
    · exact limit_pos positive
  have fewer : (rowsAfter collate place (timeLog collate db payload startTs)).length ≤
      db.logEntrySync.rows.length :=
    le_trans (length_rowsAfter_le place _) (length_receivedLog_le db payload.teamId _)
  obtain ⟨st, rows, rest, split, ran, answers⟩ :=
    @forwardLoop_spec κ _ collate codec db { payload with cursor := cursor } startTs resolvedStartSeq
      forward positive binds reads (db.logEntrySync.rows.length + 1) _ _ _ _ started placed rfl
      (by omega)
  refine ⟨st, rows, rest, ?_, split, answers⟩
  simp only [callByCursor, collectByCursor, resolved, ran, Option.bind_eq_bind, Option.bind_some,
    Option.pure_def]

/-! ## Following the cursor -/

/-- The responses that take some rows one after another, each a front of what the ones before left. -/
inductive Pages (codec : CursorCodec) (limit : Option Nat) (resolvedStartSeq : Int) :
    List LogEntrySync → List (Int × CursorState) → Prop
  | last {rows : List LogEntrySync} {st : CursorState} :
      Answers codec limit resolvedStartSeq rows [] st →
      Pages codec limit resolvedStartSeq rows [(resolvedStartSeq, st)]
  | more {rows rest : List LogEntrySync} {st : CursorState} {later : List (Int × CursorState)} :
      Answers codec limit resolvedStartSeq rows rest st → rest ≠ [] →
      Pages codec limit resolvedStartSeq rest later →
      Pages codec limit resolvedStartSeq (rows ++ rest) ((resolvedStartSeq, st) :: later)

/-- Together they return the rows. -/
theorem Pages.entries {limit : Option Nat} {resolvedStartSeq : Int} {rows : List LogEntrySync}
    {calls : List (Int × CursorState)} (pages : Pages codec limit resolvedStartSeq rows calls) :
    calls.flatMap (fun call => (cursorResponse call.1 call.2).entries) = rows.map (·.entry) := by
  induction pages with
  | last answers => simp [cursorResponse, answers.entries]
  | more answers _ _ ih =>
    rw [List.flatMap_cons, ih, List.map_append, cursorResponse, answers.entries]

/-- They take them one after another. -/
theorem Pages.rows {limit : Option Nat} {resolvedStartSeq : Int} {rows : List LogEntrySync}
    {calls : List (Int × CursorState)} (pages : Pages codec limit resolvedStartSeq rows calls) :
    calls.flatMap (fun call => call.2.entries) = rows := by
  induction pages with
  | last answers => simp [answers.entries]
  | more answers _ _ ih => rw [List.flatMap_cons, ih, answers.entries]

/-- **A client that follows the cursor gets the rows beyond it page by page**, with one call more than
there are rows. -/
theorem follow_forward {db : Database} {payload : LogEntryPullPayload} {startTs : Int}
    {resolvedStartSeq : Int} (forward : payload.direction ≠ some .backward)
    (positive : payload.limit ≠ some 0)
    (binds : (timestampFilter payload startTs).Binds payload.teamId)
    (reads : codec.Reads db.logEntrySync.rows)
    (resolved : resolveSyncSeqForTimestamp db payload.teamId startTs = some resolvedStartSeq)
    (calls : Nat) {cursor : Option String} {place : Option Position}
    (placed : codec.place cursor = some place)
    (enough : (rowsAfter collate place (timeLog collate db payload startTs)).length < calls) :
    ∃ answered, followCursor collate codec db payload startTs calls cursor = some answered ∧
      Pages codec payload.limit resolvedStartSeq
        (rowsAfter collate place (timeLog collate db payload startTs)) answered := by
  induction calls generalizing cursor place with
  | zero => exact absurd enough (Nat.not_lt_zero _)
  | succ calls ih =>
    obtain ⟨st, rows, rest, called, split, answers⟩ :=
      forwardCall_spec collate forward positive binds reads placed resolved
    rw [followCursor_succ called, answers.hasNextPage, split]
    by_cases none_ : rest = []
    · subst none_
      rw [List.append_nil]
      exact ⟨_, rfl, .last answers⟩
    · have someRow : rows ≠ [] :=
        answers.progress (List.append_ne_nil_of_right_ne_nil _ none_)
      obtain ⟨last, isLast⟩ : ∃ last, rows.getLast? = some last :=
        ⟨_, List.getLast?_eq_some_getLast someRow⟩
      have inTable : last ∈ db.logEntrySync.rows := by
        have : last ∈ rowsAfter collate place (timeLog collate db payload startTs) := by
          rw [split]
          exact List.mem_append_left _ (List.mem_of_getLast? isLast)
        exact (mem_receivedLog.mp (mem_rowsAfter.mp this).1).1
      have placed' : codec.place st.cursor = some (some (positionOf last)) := by
        simp [answers.cursor last isLast, CursorCodec.place, CursorCodec.cursorOf,
          reads last inTable]
      have remain := rowsAfter_last (ascending_receivedLog db payload.teamId _) split isLast
      have shorter : (rowsAfter collate (some (positionOf last))
          (timeLog collate db payload startTs)).length < calls := by
        have := List.length_pos_of_ne_nil someRow
        rw [split, List.length_append] at enough
        rw [remain]
        omega
      obtain ⟨answered, followed, pages⟩ := ih placed' shorter
      rw [remain] at pages
      simp only [List.isEmpty_eq_false_iff.mpr none_, Bool.not_false, if_true, followed,
        Option.map_some]
      exact ⟨_, rfl, .more answers none_ pages⟩

/-- A call that throws is never followed up. -/
theorem not_follow {db : Database} {payload : LogEntryPullPayload} {startTs : Int}
    {cursor : Option String}
    (thrown : callByCursor collate codec db { payload with cursor := cursor } startTs = none)
    (calls : Nat) (answered : List (Int × CursorState)) :
    followCursor collate codec db payload startTs calls cursor ≠ some answered := by
  cases calls with
  | zero => nofun
  | succ calls => simp [followCursor, thrown]

/-- A call that the database cannot bind throws. -/
theorem callByCursor_eq_none {db : Database} {payload : LogEntryPullPayload} {startTs : Int}
    {cursor : Option String} (unbound : ¬ (timestampFilter payload startTs).Binds payload.teamId) :
    callByCursor collate codec db { payload with cursor := cursor } startTs = none := by
  have unbound' : ¬ (timestampFilter { payload with cursor := cursor } startTs).Binds payload.teamId :=
    unbound
  simp [callByCursor, collectByCursor, cursorLoop, Storage.getPaginatedLogEntries, unbound']

variable (collate) in
/-- What a client gets that follows the cursor forward from the start. -/
theorem pages_of_binds {db : Database} {payload : LogEntryPullPayload} {startTs : Int}
    (forward : payload.direction ≠ some .backward) (positive : payload.limit ≠ some 0)
    (binds : (timestampFilter payload startTs).Binds payload.teamId)
    (reads : codec.Reads db.logEntrySync.rows) :
    ∃ calls resolvedStartSeq answered,
      followCursor collate codec db payload startTs calls none = some answered ∧
      Pages codec payload.limit resolvedStartSeq (timeLog collate db payload startTs) answered := by
  obtain ⟨resolvedStartSeq, resolved⟩ : ∃ n,
      resolveSyncSeqForTimestamp db payload.teamId startTs = some n := exists_resolved binds.1 binds.2.1
  have enough : (rowsAfter collate none (timeLog collate db payload startTs)).length <
      db.logEntrySync.rows.length + 1 := by
    rw [rowsAfter_none]
    exact Nat.lt_succ_of_le (length_receivedLog_le db payload.teamId _)
  have placed : codec.place none = some none := rfl
  obtain ⟨answered, followed, pages⟩ :=
    follow_forward forward positive binds reads resolved _ placed enough
  rw [rowsAfter_none] at pages
  exact ⟨_, resolvedStartSeq, answered, followed, pages⟩

/-! ## The rows that are asked for -/

/-- A row that a pull asks for. -/
def Matches (payload : LogEntryPullPayload) (startTs : Int) (r : LogEntrySync) : Prop :=
  r.communityId = payload.teamId ∧ startTs ≤ r.receivedAt ∧
    (∀ endTs, payload.endTs = some endTs → r.receivedAt ≤ endTs) ∧
    (∀ hash, payload.hash = some hash → r.id = hash) ∧
    ∀ hashedDbId, payload.hashedDbId = some hashedDbId → r.hashedDbId = some hashedDbId

instance (payload : LogEntryPullPayload) (startTs : Int) (r : LogEntrySync) :
    Decidable (Matches payload startTs r) := by
  unfold Matches
  infer_instance

theorem mem_timeLog {db : Database} {payload : LogEntryPullPayload} {startTs : Int}
    {r : LogEntrySync} :
    r ∈ timeLog collate db payload startTs ↔ r ∈ db.logEntrySync.rows ∧
      (timestampFilter payload startTs).selects payload.teamId r = true :=
  mem_receivedLog

/-- The query selects the rows that are asked for. It does unless a bound is a time that no `Date` has:
from such a start it selects no row, and it leaves such an end out. -/
def AsAsked (db : Database) (payload : LogEntryPullPayload) (startTs : Int) : Prop :=
  ∀ r ∈ db.logEntrySync.rows,
    (timestampFilter payload startTs).selects payload.teamId r = true ↔ Matches payload startTs r

instance (db : Database) (payload : LogEntryPullPayload) (startTs : Int) :
    Decidable (AsAsked db payload startTs) :=
  inferInstanceAs (Decidable (∀ r ∈ db.logEntrySync.rows, _ ↔ _))

/-- Bounds that are not before the first `Date` are as asked: no row is received after the last. -/
theorem asAsked_of_dated {db : Database} {payload : LogEntryPullPayload} {startTs : Int}
    (dated : db.Dated) (start : -maxDate ≤ startTs)
    (end_ : ∀ endTs, payload.endTs = some endTs → -maxDate ≤ endTs) : AsAsked db payload startTs := by
  intro r inTable
  obtain ⟨-, byLast⟩ := dated r inTable
  have startMeans : (∃ startDateTime ∈ (timestampFilter payload startTs).startDateTime,
      startDateTime ≤ r.receivedAt) ↔ startTs ≤ r.receivedAt := by
    constructor
    · rintro ⟨startDateTime, isTime, received⟩
      obtain ⟨-, rfl⟩ := toISO_eq_some.mp isTime
      exact received
    · intro received
      exact ⟨startTs, toISO_eq_some.mpr ⟨⟨start, received.trans byLast⟩, rfl⟩, received⟩
  have endMeans : (∀ endDateTime ∈ (timestampFilter payload startTs).endDateTime,
      r.receivedAt ≤ endDateTime) ↔ ∀ endTs, payload.endTs = some endTs → r.receivedAt ≤ endTs := by
    constructor
    · intro bounded endTs isEnd
      by_cases isDate : endTs ≤ maxDate
      · refine bounded endTs (Option.bind_eq_some_iff.mpr ⟨endTs, isEnd, ?_⟩)
        exact toISO_eq_some.mpr ⟨⟨end_ endTs isEnd, isDate⟩, rfl⟩
      · omega
    · intro bounded endDateTime isTime
      obtain ⟨endTs, isEnd, isTime⟩ := Option.bind_eq_some_iff.mp isTime
      obtain ⟨-, rfl⟩ := toISO_eq_some.mp isTime
      exact bounded _ isEnd
  rw [selects_iff, startMeans, endMeans]
  rfl

/-! ## Paging forward -/

variable (collate codec) in
/-- What forward paging owes: the client that follows the cursor is done after some calls, and the
responses take the matching rows in the order of positions, each once and each response within its
limits. -/
def PagesForward (db : Database) (payload : LogEntryPullPayload) (startTs : Int) : Prop :=
  ∃ rows calls resolvedStartSeq answered,
    Cursor.Ascending (timeOf collate) rows ∧
    (∀ r, r ∈ rows ↔ r ∈ db.logEntrySync.rows ∧ Matches payload startTs r) ∧
    followCursor collate codec db payload startTs calls none = some answered ∧
    Pages codec payload.limit resolvedStartSeq rows answered ∧
    answered.flatMap (fun call => (cursorResponse call.1 call.2).entries) = rows.map (·.entry)

section
variable {db : Database} {payload : LogEntryPullPayload} {startTs : Int}

theorem pagesForward_of_asAsked (forward : payload.direction ≠ some .backward)
    (positive : payload.limit ≠ some 0) (reads : codec.Reads db.logEntrySync.rows)
    (binds : (timestampFilter payload startTs).Binds payload.teamId)
    (asked : AsAsked db payload startTs) : PagesForward collate codec db payload startTs := by
  obtain ⟨calls, resolvedStartSeq, answered, followed, pages⟩ :=
    pages_of_binds collate forward positive binds reads
  refine ⟨_, calls, resolvedStartSeq, answered, ascending_timeLog db payload startTs, fun r => ?_,
    followed, pages, pages.entries⟩
  rw [mem_timeLog]
  exact and_congr_right (asked r)

/-- A client that got the matching rows asked what the database can bind, and got what it selects. -/
theorem asAsked_of_pagesForward (forward : payload.direction ≠ some .backward)
    (positive : payload.limit ≠ some 0) (reads : codec.Reads db.logEntrySync.rows)
    (paged : PagesForward collate codec db payload startTs) :
    (timestampFilter payload startTs).Binds payload.teamId ∧ AsAsked db payload startTs := by
  obtain ⟨rows, calls, _, answered, -, matching, followed, pages, -⟩ := paged
  have binds : (timestampFilter payload startTs).Binds payload.teamId := by
    by_contra unbound
    exact not_follow (callByCursor_eq_none unbound) calls answered followed
  obtain ⟨calls', _, answered', followed', pages'⟩ :=
    pages_of_binds collate forward positive binds reads
  refine ⟨binds, fun r inTable => ?_⟩
  have isMatch := matching r
  rw [← pages.rows, followCursor_unique followed followed', pages'.rows, mem_timeLog] at isMatch
  simpa [inTable] using isMatch

end

/-- **Following the cursor forward collects the matching rows** exactly when the database can bind the
call and its bounds select what was asked for, for every table and every way to write cursors. -/
theorem cursor_paging_forward (collate : String ↪ κ) (codec : CursorCodec) (db : Database)
    (payload : LogEntryPullPayload) (startTs : Int)
    (forward : payload.direction = none ∨ payload.direction = some .forward)
    (positive : payload.limit ≠ some 0) (reads : codec.Reads db.logEntrySync.rows) :
    PagesForward collate codec db payload startTs ↔
      (timestampFilter payload startTs).Binds payload.teamId ∧ AsAsked db payload startTs := by
  have forward : payload.direction ≠ some .backward := by
    rcases forward with none_ | forward
    · simp [none_]
    · simp [forward]
  constructor
  · exact asAsked_of_pagesForward forward positive reads
  · rintro ⟨binds, asked⟩
    exact pagesForward_of_asAsked forward positive reads binds asked

end

/-- A codec of some positions, with their cursors as the ORM writes them: the base64url text of a JSON
array of the time and the id. It is not asked for others. -/
def listed (cursors : List (Position × String)) : CursorCodec where
  encode := fun p => (cursors.lookup p).getD p.id
  decode := fun cursor => (cursors.find? fun known => known.2 == cursor).map (·.1)

def codecOfA : CursorCodec :=
  listed [(⟨0, "a"⟩, "WyIxOTcwLTAxLTAxVDAwOjAwOjAwLjAwMFoiLCJhIl0")]

/-- A pull by time of the community `"team"`. -/
def pullSince (hash : Option String) (endTs : Option Int) : LogEntryPullPayload where
  teamId := "team"
  userId := "user"
  limit := some 300
  endTs := endTs
  hash := hash

/-- The greatest safe integer is beyond the last `Date`: the query leaves it out and answers. -/
theorem cursor_paging_forward_single :
    PagesForward (.refl String) codecOfA (singleRow ⟨1, by decide⟩)
      (pullSince (some "a") (some 9007199254740991)) 0 :=
  (cursor_paging_forward _ _ _ _ _ (.inl rfl) (by decide) (by decide)).mpr
    ⟨by decide, by decide⟩

/-- **Not of every call**: one that the database cannot bind gets no response, be it for a text or for
a time. From a start before the first `Date` no row is selected, and an end before it does not keep a
row out. -/
theorem cursor_paging_of_any_call_fails :
    ¬ PagesForward (.refl String) codecOfA (singleRow ⟨1, by decide⟩)
        (pullSince (some "\x00") none) 0 ∧
      ¬ PagesForward (.refl String) codecOfA (singleRow ⟨1, by decide⟩) (pullSince none none)
        253402300800000 ∧
      ¬ PagesForward (.refl String) codecOfA (singleRow ⟨1, by decide⟩) (pullSince none none)
        (-8640000000000001) ∧
      ¬ PagesForward (.refl String) codecOfA (singleRow ⟨1, by decide⟩)
        (pullSince none (some (-8640000000000001))) 0 := by
  refine ⟨?_, ?_, ?_, ?_⟩
  all_goals
    intro paged
    have answerable := asAsked_of_pagesForward (by decide) (by decide) (by decide) paged
    revert answerable
    decide

end QuietStorage.Sync
