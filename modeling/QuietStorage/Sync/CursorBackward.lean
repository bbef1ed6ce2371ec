import QuietStorage.Sync.CursorForward

/-!
# Sync.CursorBackward — following the cursor backward

Backward, the page before a cursor is the last rows before it, and the loops go on from the same two
fields as forward: from the end of the page, which overlaps it, and only if a cursor was given, since
that is what `hasNextPage` says of such a page. The calls still end (`follow_backward_ends`), because
every cursor lies before the one it was read from; but what a response leaves behind its last entry is
never returned, and a first response that takes its page is the last.

So a client that follows the cursor gets every matching row exactly once only when the first response
has them all, and has no others because of an end that the query leaves out
(`backward_exactly_once_iff`).
-/

set_option autoImplicit false

namespace QuietStorage.Sync

open Lib Storage Packing

section
variable {κ : Type} [LinearOrder κ] {collate : String ↪ κ} {codec : CursorCodec}

/-- What a backward call from a place has gathered: rows before the place, and the cursor of one. -/
structure Behind (collate : String ↪ κ) (codec : CursorCodec) (log : List LogEntrySync)
    (place : Option Position) (st : CursorState) : Prop where
  entries : ∀ r ∈ st.entries, r ∈ rowsBefore collate place log
  cursor : st.entries ≠ [] →
    ∃ r ∈ rowsBefore collate place log, st.cursor = some (codec.cursorOf r)

section
variable {log : List LogEntrySync} {place next : Option Position} {st : CursorState}
  {limit : Option Nat} {resolvedStartSeq : Int}

theorem behind_fill (behind : Behind collate codec log place st) (more : Bool)
    {p : Packed LogEntrySync} (before : ∀ r ∈ p.taken, r ∈ rowsBefore collate place log) :
    Behind collate codec log place (st.fill codec more p) := by
  refine ⟨fun r mem => ?_, fun some_ => ?_⟩
  · exact (List.mem_append.mp mem).elim (behind.entries r) (before r)
  · cases taken : p.taken.getLast? with
    | none =>
      have noneTaken := List.getLast?_eq_none_iff.mp taken
      have some_ : st.entries ≠ [] := by simpa [CursorState.fill, noneTaken] using some_
      simpa [CursorState.fill, lastCursor, taken] using behind.cursor some_
    | some item =>
      refine ⟨item, before item (List.mem_of_getLast? taken), ?_⟩
      simp [CursorState.fill, lastCursor, taken]

variable (collate codec) in
theorem backward_ends (log : List LogEntrySync) (last : Nat) (before : Option Position) :
    (findByCursorBackward collate codec log last before).endCursor =
      lastCursor codec (findByCursorBackward collate codec log last before).items none := by
  simp [findByCursorBackward, lastCursor]

/-- **A backward round stays behind its cursor**, and one that goes on goes on from a row behind it. -/
theorem backwardRound_spec (last : Nat) (behind : Behind collate codec log place st) (isOpen : st.Open)
    (room : (responseLimits codec limit resolvedStartSeq).Room st.entries.length)
    (within : ∀ r ∈ rowsBefore collate next log, r ∈ rowsBefore collate place log) :
    (∃ st', cursorRound codec limit resolvedStartSeq
          (findByCursorBackward collate codec log last next) st = .done st' ∧
        Behind collate codec log place st' ∧ (st'.hasNextPage = true → st'.entries ≠ [])) ∨
      ∃ st' r, cursorRound codec limit resolvedStartSeq
          (findByCursorBackward collate codec log last next) st = .more st' ∧
        Behind collate codec log place st' ∧ st'.Open ∧
        (responseLimits codec limit resolvedStartSeq).Room st'.entries.length ∧
        r ∈ rowsBefore collate next log ∧ st'.nextCursor = some (codec.cursorOf r) := by
  obtain ⟨dropped, split, -⟩ := backward_spec collate codec log last next
  have ends := backward_ends collate codec log last next
  generalize findByCursorBackward collate codec log last next = page at split ends
  have inLog : ∀ r ∈ page.items, r ∈ rowsBefore collate next log := by
    intro r mem
    rw [split]
    exact List.mem_append_right _ mem
  by_cases none_ : page.items = []
  · exact .inl ⟨_, round_empty none_, ⟨behind.entries, behind.cursor⟩, nofun⟩
  · have sound := Limits.pack_sound (L := responseLimits codec limit resolvedStartSeq)
      page.hasNextPage page.items st.entries.length st.usedBytes room
    have taken : ∀ r ∈ (packPage codec limit resolvedStartSeq page st).taken,
        r ∈ rowsBefore collate place log := by
      intro r mem
      refine within r (inLog r ?_)
      rw [sound.split]
      exact List.mem_append_left _ mem
    have filled := behind_fill behind page.hasNextPage taken
    have progress : (st.fill codec page.hasNextPage
        (packPage codec limit resolvedStartSeq page st)).entries ≠ [] := by
      intro noEntry
      obtain ⟨first, noneTaken⟩ := List.append_eq_nil_iff.mp noEntry
      exact sound.progress (by rw [first]; rfl) none_ noneTaken
    by_cases ended : (packPage codec limit resolvedStartSeq page st).stop = .ended
    · obtain ⟨whole, room'⟩ := sound.ended ended
      cases follows : page.hasNextPage with
      | false =>
        exact .inl ⟨_, round_last none_ ends isOpen ended whole follows, filled, fun _ => progress⟩
      | true =>
        obtain ⟨front, r, isLast⟩ := (List.eq_nil_or_concat' page.items).resolve_left none_
        refine .inr ⟨_, r, round_more none_ ends isOpen ended follows,
          ⟨filled.entries, filled.cursor⟩, ⟨?_, ?_⟩, ?_, inLog r ?_, ?_⟩
        · simp [CursorState.fill, ended]
        · simp [CursorState.fill, ended]
        · simpa [CursorState.fill] using room'
        · simp [isLast]
        · simp [ends, lastCursor, isLast]
    · exact .inl ⟨_, round_stopped none_ ends isOpen ended, filled, fun _ => progress⟩

end

/-! ## A call -/

/-- A backward outer loop ends, with a round for each row before its cursor and one more. -/
theorem backwardLoop_ends {db : Database} {payload : LogEntryPullPayload} {startTs : Int}
    (resolvedStartSeq : Int) (backward : payload.direction = some .backward)
    (binds : (timestampFilter payload startTs).Binds payload.teamId)
    (reads : codec.Reads db.logEntrySync.rows) {place : Option Position} (rounds : Nat)
    (st : CursorState) {next : Option Position}
    (behind : Behind collate codec (timeLog collate db payload startTs) place st) (isOpen : st.Open)
    (room : (responseLimits codec payload.limit resolvedStartSeq).Room st.entries.length)
    (placed : codec.place st.nextCursor = some next)
    (within : ∀ r ∈ rowsBefore collate next (timeLog collate db payload startTs),
      r ∈ rowsBefore collate place (timeLog collate db payload startTs))
    (enough : (rowsBefore collate next (timeLog collate db payload startTs)).length < rounds) :
    ∃ st', cursorLoop collate codec db payload startTs resolvedStartSeq rounds st = some st' ∧
      Behind collate codec (timeLog collate db payload startTs) place st' ∧
      (st'.hasNextPage = true → st'.entries ≠ []) := by
  induction rounds generalizing st next with
  | zero => exact absurd enough (Nat.not_lt_zero _)
  | succ rounds ih =>
    have read : Storage.getPaginatedLogEntries collate codec db payload.teamId
        (timestampFilter payload startTs) st.nextCursor = some (findByCursorBackward collate codec
          (timeLog collate db payload startTs) (min (payload.limit.getD 200) 200) next) :=
      read_backward backward binds placed
    have round := backwardRound_spec (min (payload.limit.getD 200) 200) behind isOpen room within
    rcases round with ⟨st', done, behind', progress⟩ |
      ⟨st', r, more, behind', isOpen', room', mem, goesOn⟩
    · exact ⟨st', cursorLoop_done rounds read done, behind', progress⟩
    · rw [cursorLoop_more rounds read more]
      have inTable : r ∈ db.logEntrySync.rows := (mem_receivedLog.mp (mem_rowsBefore.mp mem).1).1
      have placed' : codec.place st'.nextCursor = some (some (positionOf r)) := by
        simp [goesOn, CursorCodec.place, CursorCodec.cursorOf, reads r inTable]
      have shorter := length_rowsBefore_lt mem
      exact ih st' behind' isOpen' room' placed'
        (fun a earlier => within a (mem_rowsBefore_trans mem earlier)) (by omega)

theorem room_start {limit : Option Nat} (positive : limit ≠ some 0) (resolvedStartSeq : Int) :
    (responseLimits codec limit resolvedStartSeq).Room 0 :=
  limit_pos positive

variable (collate) in
/-- A backward response stays behind its cursor. -/
theorem backwardCall_spec {db : Database} {payload : LogEntryPullPayload} {startTs : Int}
    (backward : payload.direction = some .backward) (positive : payload.limit ≠ some 0)
    (binds : (timestampFilter payload startTs).Binds payload.teamId)
    (reads : codec.Reads db.logEntrySync.rows) {cursor : Option String} {place : Option Position}
    (placed : codec.place cursor = some place) :
    ∃ call, callByCursor collate codec db { payload with cursor := cursor } startTs = some call ∧
      Behind collate codec (timeLog collate db payload startTs) place call.2 ∧
      (call.2.hasNextPage = true → call.2.entries ≠ []) := by
  obtain ⟨resolvedStartSeq, resolved⟩ : ∃ n,
      resolveSyncSeqForTimestamp db payload.teamId startTs = some n := exists_resolved binds.1 binds.2.1
  have fewer : (rowsBefore collate place (timeLog collate db payload startTs)).length ≤
      db.logEntrySync.rows.length :=
    le_trans (length_rowsBefore_le place _) (length_receivedLog_le db payload.teamId _)
  have started : Behind collate codec (timeLog collate db payload startTs) place
      { cursor := cursor, nextCursor := cursor } :=
    ⟨fun r none_ => by simp at none_, fun none_ => absurd rfl none_⟩
  obtain ⟨st, ran, behind, progress⟩ :=
    @backwardLoop_ends κ _ collate codec db { payload with cursor := cursor } startTs resolvedStartSeq
      backward binds reads place (db.logEntrySync.rows.length + 1) _ place started ⟨rfl, rfl⟩
      (room_start positive resolvedStartSeq) placed (fun _ => id)
      (Nat.lt_succ_of_le fewer)
  refine ⟨(resolvedStartSeq, st), ?_, behind, progress⟩
  simp only [callByCursor, collectByCursor, resolved, ran, Option.bind_eq_bind, Option.bind_some,
    Option.pure_def]

/-- The next cursor of a response that goes on is behind the one it was read from. -/
theorem placed_behind {log : List LogEntrySync} {rows : List LogEntrySync} {place : Option Position}
    {st : CursorState} (inTable : ∀ r ∈ log, r ∈ rows) (reads : codec.Reads rows)
    (behind : Behind collate codec log place st) (some_ : st.entries ≠ []) :
    ∃ r ∈ rowsBefore collate place log, codec.place st.cursor = some (some (positionOf r)) := by
  obtain ⟨r, mem, isCursor⟩ := behind.cursor some_
  refine ⟨r, mem, ?_⟩
  simp [isCursor, CursorCodec.place, CursorCodec.cursorOf,
    reads r (inTable r (mem_rowsBefore.mp mem).1)]

theorem mem_rows_of_mem_timeLog {db : Database} {payload : LogEntryPullPayload} {startTs : Int} :
    ∀ r ∈ timeLog collate db payload startTs, r ∈ db.logEntrySync.rows :=
  fun _ mem => (mem_timeLog.mp mem).1

/-! ## Following the cursor -/

/-- **A client that follows the cursor backward is done**, with one call more than there are rows. -/
theorem follow_backward_ends {db : Database} {payload : LogEntryPullPayload} {startTs : Int}
    (backward : payload.direction = some .backward) (positive : payload.limit ≠ some 0)
    (binds : (timestampFilter payload startTs).Binds payload.teamId)
    (reads : codec.Reads db.logEntrySync.rows) (calls : Nat) {cursor : Option String}
    {place : Option Position} (placed : codec.place cursor = some place)
    (enough : (rowsBefore collate place (timeLog collate db payload startTs)).length < calls) :
    ∃ answered, followCursor collate codec db payload startTs calls cursor = some answered := by
  induction calls generalizing cursor place with
  | zero => exact absurd enough (Nat.not_lt_zero _)
  | succ calls ih =>
    obtain ⟨call, called, behind, progress⟩ :=
      backwardCall_spec collate backward positive binds reads placed
    rw [followCursor_succ called]
    cases more : call.2.hasNextPage with
    | false => exact ⟨_, rfl⟩
    | true =>
      obtain ⟨r, mem, placed'⟩ :=
        placed_behind mem_rows_of_mem_timeLog reads behind (progress more)
      have shorter := length_rowsBefore_lt mem
      obtain ⟨later, followed⟩ := ih placed' (by omega)
      simp only [if_true, followed, Option.map_some]
      exact ⟨_, rfl⟩

/-- Everything that is returned from a cursor on lies before it. -/
theorem follow_backward_before {db : Database} {payload : LogEntryPullPayload} {startTs : Int}
    (backward : payload.direction = some .backward) (positive : payload.limit ≠ some 0)
    (binds : (timestampFilter payload startTs).Binds payload.teamId)
    (reads : codec.Reads db.logEntrySync.rows) (calls : Nat) {cursor : Option String}
    {place : Option Position} (placed : codec.place cursor = some place)
    {answered : List (Int × CursorState)}
    (followed : followCursor collate codec db payload startTs calls cursor = some answered) :
    ∀ r ∈ answered.flatMap (fun call => call.2.entries),
      r ∈ rowsBefore collate place (timeLog collate db payload startTs) := by
  induction calls generalizing cursor place answered with
  | zero => cases followed
  | succ calls ih =>
    obtain ⟨call, called, behind, progress⟩ :=
      backwardCall_spec collate backward positive binds reads placed
    rcases followed_cases called followed with ⟨_, rfl⟩ | ⟨more, _, later, same, followed', rfl⟩
    · simpa using behind.entries
    · obtain ⟨first, mem, placed'⟩ :=
        placed_behind mem_rows_of_mem_timeLog reads behind (progress more)
      cases same
      intro r isEntry
      rw [List.flatMap_cons, List.mem_append] at isEntry
      rcases isEntry with here | there
      · exact behind.entries r here
      · exact mem_rowsBefore_trans mem (ih placed' followed' r there)

/-! ## The first response -/

/-- The page before a place. -/
abbrev pageBefore (collate : String ↪ κ) (codec : CursorCodec) (db : Database)
    (payload : LogEntryPullPayload) (startTs : Int) (place : Option Position) : CursorPage :=
  findByCursorBackward collate codec (timeLog collate db payload startTs)
    (min (payload.limit.getD 200) 200) place

/-- The page of a call without a cursor. -/
abbrev firstPage (collate : String ↪ κ) (codec : CursorCodec) (db : Database)
    (payload : LogEntryPullPayload) (startTs : Int) : CursorPage :=
  pageBefore collate codec db payload startTs none

/-- What the first response takes of its page. -/
abbrev firstPacked (collate : String ↪ κ) (codec : CursorCodec) (db : Database)
    (payload : LogEntryPullPayload) (startTs resolvedStartSeq : Int) : Packed LogEntrySync :=
  (responseLimits codec payload.limit resolvedStartSeq).pack false 0 0
    (firstPage collate codec db payload startTs).items

variable (collate codec) in
theorem firstPacked_sound (db : Database) {payload : LogEntryPullPayload}
    (positive : payload.limit ≠ some 0) (startTs resolvedStartSeq : Int) :
    (responseLimits codec payload.limit resolvedStartSeq).Sound false 0 0
      (firstPage collate codec db payload startTs).items
      (firstPacked collate codec db payload startTs resolvedStartSeq) :=
  Limits.pack_sound false _ 0 0 (room_start positive resolvedStartSeq)

variable (collate codec) in
/-- **A call without a cursor reads one page**, which says that no other follows. -/
theorem firstCall_spec {db : Database} {payload : LogEntryPullPayload} {startTs : Int}
    {resolvedStartSeq : Int} (backward : payload.direction = some .backward)
    (positive : payload.limit ≠ some 0)
    (binds : (timestampFilter payload startTs).Binds payload.teamId)
    (resolved : resolveSyncSeqForTimestamp db payload.teamId startTs = some resolvedStartSeq) :
    ∃ st, callByCursor collate codec db { payload with cursor := none } startTs =
        some (resolvedStartSeq, st) ∧
      st.entries = (firstPacked collate codec db payload startTs resolvedStartSeq).taken ∧
      st.cursor = lastCursor codec
        (firstPacked collate codec db payload startTs resolvedStartSeq).taken none ∧
      st.hasNextPage = !(firstPacked collate codec db payload startTs resolvedStartSeq).rest.isEmpty := by
  have read : Storage.getPaginatedLogEntries collate codec db payload.teamId
      (timestampFilter payload startTs) none = some (firstPage collate codec db payload startTs) :=
    read_backward backward binds rfl
  have ends := backward_ends collate codec (timeLog collate db payload startTs)
    (min (payload.limit.getD 200) 200) none
  have answered : ∀ st, cursorRound codec payload.limit resolvedStartSeq
      (firstPage collate codec db payload startTs) { cursor := none, nextCursor := none } = .done st →
      callByCursor collate codec db { payload with cursor := none } startTs =
        some (resolvedStartSeq, st) := by
    intro st done
    have ran : collectByCursor collate codec db { payload with cursor := none } startTs
        resolvedStartSeq = some st := cursorLoop_done _ read done
    simp only [callByCursor, resolved, ran, Option.bind_eq_bind, Option.bind_some, Option.pure_def]
  have sound := firstPacked_sound collate codec db positive startTs resolvedStartSeq
  by_cases none_ : (firstPage collate codec db payload startTs).items = []
  · refine ⟨_, answered _ (round_empty none_), ?_⟩
    simp [firstPacked, none_, Limits.pack, lastCursor]
  · have filled : ∀ st, st = CursorState.fill codec { cursor := none, nextCursor := none } false
        (firstPacked collate codec db payload startTs resolvedStartSeq) →
        st.entries = (firstPacked collate codec db payload startTs resolvedStartSeq).taken ∧
        st.cursor = lastCursor codec
          (firstPacked collate codec db payload startTs resolvedStartSeq).taken none ∧
        st.hasNextPage =
          !(firstPacked collate codec db payload startTs resolvedStartSeq).rest.isEmpty := by
      rintro st rfl
      exact ⟨List.nil_append _, rfl, Bool.or_false _⟩
    by_cases ended : (firstPacked collate codec db payload startTs resolvedStartSeq).stop = .ended
    · obtain ⟨whole, -⟩ := sound.ended ended
      exact ⟨_, answered _ (round_last none_ ends ⟨rfl, rfl⟩ ended whole rfl), filled _ rfl⟩
    · exact ⟨_, answered _ (round_stopped none_ ends ⟨rfl, rfl⟩ ended), filled _ rfl⟩

/-! ## Every row once -/

variable (collate codec) in
/-- What backward paging owes: the client that follows the cursor is done after some calls, and the
responses together have every matching row exactly once. -/
def ReturnsEachOnce (db : Database) (payload : LogEntryPullPayload) (startTs : Int) : Prop :=
  ∃ calls answered, followCursor collate codec db payload startTs calls none = some answered ∧
    (∀ call ∈ answered, call.2.entries.Nodup) ∧
    (answered.flatMap fun call => call.2.entries).Nodup ∧
    ∀ r, r ∈ answered.flatMap (fun call => call.2.entries) ↔
      r ∈ db.logEntrySync.rows ∧ Matches payload startTs r

variable (collate codec) in
/-- The database can bind the call and selects what was asked for. The rows are one page, and the byte
budget does not end it before its last row. -/
def FitsOneResponse (db : Database) (payload : LogEntryPullPayload) (startTs : Int) : Prop :=
  (timestampFilter payload startTs).Binds payload.teamId ∧ AsAsked db payload startTs ∧
    (timeLog collate db payload startTs).length ≤ min (payload.limit.getD 200) 200 ∧
    ∀ n, resolveSyncSeqForTimestamp db payload.teamId startTs = some n →
      (responseLimits codec payload.limit n).Whole false (timeLog collate db payload startTs)

variable (collate codec) in
/-- The first page is all of the log or its last rows, and has no more rows than were asked for. -/
theorem firstPage_spec (db : Database) (payload : LogEntryPullPayload) (startTs : Int) :
    (∃ dropped, timeLog collate db payload startTs =
        dropped ++ (firstPage collate codec db payload startTs).items ∧
      ((timeLog collate db payload startTs).length ≤ min (payload.limit.getD 200) 200 ↔
        dropped = [])) ∧
      ∀ n, payload.limit = some n → (firstPage collate codec db payload startTs).items.length ≤ n := by
  constructor
  · have spec := backward_spec collate codec (timeLog collate db payload startTs)
      (min (payload.limit.getD 200) 200) none
    rw [rowsBefore_none] at spec
    exact spec
  · intro n isLimit
    simp only [firstPage, findByCursorBackward, rowsBefore_none, List.rtake, List.length_drop, isLimit,
      Option.getD_some]
    omega

/-- The first page has a row if there is one. -/
theorem firstPage_ne_nil {db : Database} {payload : LogEntryPullPayload} {startTs : Int}
    (positive : payload.limit ≠ some 0) (some_ : timeLog collate db payload startTs ≠ []) :
    (firstPage collate codec db payload startTs).items ≠ [] := by
  obtain ⟨⟨dropped, split, onePage⟩, -⟩ := firstPage_spec collate codec db payload startTs
  intro none_
  have first : 0 < min (payload.limit.getD 200) 200 := pageSize_pos positive
  have rest : (firstPage collate codec db payload startTs).items.length = _ := List.length_drop
  rw [none_, rowsBefore_none, List.length_nil] at rest
  have := List.length_pos_of_ne_nil some_
  omega

/-- A response that leaves a row of the first page behind loses it. -/
theorem left_behind {db : Database} {payload : LogEntryPullPayload} {startTs : Int}
    (backward : payload.direction = some .backward) (positive : payload.limit ≠ some 0)
    (binds : (timestampFilter payload startTs).Binds payload.teamId)
    (reads : codec.Reads db.logEntrySync.rows) {taken rest : List LogEntrySync} {dropped : List LogEntrySync}
    (split : timeLog collate db payload startTs = dropped ++ (taken ++ rest)) (some_ : taken ≠ [])
    {calls : Nat} {answered : List (Int × CursorState)}
    (followed : followCursor collate codec db payload startTs calls (lastCursor codec taken none) =
      some answered) :
    ∀ r ∈ rest, r ∉ answered.flatMap fun call => call.2.entries := by
  intro r inRest returned
  obtain ⟨front, last, rfl⟩ := (List.eq_nil_or_concat' taken).resolve_left some_
  have ascending : Cursor.Ascending (timeOf collate) (timeLog collate db payload startTs) :=
    ascending_timeLog db payload startTs
  rw [split] at ascending
  have after : timeOf collate last < timeOf collate r := by
    have ascending := (Cursor.ascending_append.mp ascending).2.1
    exact (Cursor.ascending_append.mp ascending).2.2 last (by simp) r inRest
  have inTable : last ∈ db.logEntrySync.rows := by
    have inLog : last ∈ timeLog collate db payload startTs := by
      rw [split]
      simp
    exact mem_rows_of_mem_timeLog last inLog
  have placed : codec.place (lastCursor codec (front ++ [last]) none) =
      some (some (positionOf last)) := by
    simp [lastCursor, CursorCodec.place, CursorCodec.cursorOf, reads last inTable]
  have before := follow_backward_before backward positive binds reads calls placed followed r returned
  exact lt_asymm after ((mem_rowsBefore.mp before).2 _ rfl)

section
variable {db : Database} {payload : LogEntryPullPayload} {startTs n : Int}

/-- Where the first response takes all rows, none lies before its page and none is left on it. -/
theorem whole_of_taken (positive : payload.limit ≠ some 0) {dropped : List LogEntrySync}
    (split : timeLog collate db payload startTs =
      dropped ++ (firstPage collate codec db payload startTs).items)
    (taken : (firstPacked collate codec db payload startTs n).taken =
      timeLog collate db payload startTs) :
    dropped = [] ∧ (firstPacked collate codec db payload startTs n).rest = [] := by
  have lengths := congrArg List.length split
  rw [(firstPacked_sound collate codec db positive startTs n).split, ← taken, List.length_append,
    List.length_append] at lengths
  constructor
  · exact List.length_eq_zero_iff.mp (by omega)
  · exact List.length_eq_zero_iff.mp (by omega)

variable (codec) in
/-- The rows fit one response exactly if the first response takes all of them. -/
theorem fitsOneResponse_iff (positive : payload.limit ≠ some 0)
    (binds : (timestampFilter payload startTs).Binds payload.teamId)
    (asked : AsAsked db payload startTs)
    (resolved : resolveSyncSeqForTimestamp db payload.teamId startTs = some n) :
    FitsOneResponse collate codec db payload startTs ↔
      (firstPacked collate codec db payload startTs n).taken =
        timeLog collate db payload startTs := by
  obtain ⟨⟨dropped, split, onePage⟩, counted⟩ := firstPage_spec collate codec db payload startTs
  have sound := firstPacked_sound collate codec db positive startTs n
  have whole : (firstPacked collate codec db payload startTs n).rest = [] ↔
      (responseLimits codec payload.limit n).Whole false
        (firstPage collate codec db payload startTs).items := Limits.pack_rest_eq_nil_iff counted
  constructor
  · rintro ⟨-, -, fits, within⟩
    have isLog : timeLog collate db payload startTs =
        (firstPage collate codec db payload startTs).items := by
      rw [split, onePage.mp fits, List.nil_append]
    rw [isLog]
    exact sound.taken_eq (whole.mpr (isLog ▸ within n resolved))
  · intro taken
    obtain ⟨noneDropped, noneLeft⟩ := whole_of_taken positive split taken
    refine ⟨binds, asked, onePage.mpr noneDropped, fun m isIt => ?_⟩
    obtain rfl : m = n := Option.some.inj (isIt.symm.trans resolved)
    rw [split, noneDropped, List.nil_append]
    exact whole.mp noneLeft

/-- If every matching row is returned, the first response takes all of them. -/
theorem taken_of_returnsEachOnce (backward : payload.direction = some .backward)
    (positive : payload.limit ≠ some 0)
    (binds : (timestampFilter payload startTs).Binds payload.teamId)
    (reads : codec.Reads db.logEntrySync.rows) (asked : AsAsked db payload startTs)
    (resolved : resolveSyncSeqForTimestamp db payload.teamId startTs = some n)
    (returns : ReturnsEachOnce collate codec db payload startTs) :
    (firstPacked collate codec db payload startTs n).taken = timeLog collate db payload startTs := by
  obtain ⟨calls, answered, followed, -, -, each⟩ := returns
  obtain ⟨st, called, entries, cursor, more⟩ :=
    firstCall_spec collate codec backward positive binds resolved
  obtain ⟨⟨dropped, split, -⟩, -⟩ := firstPage_spec collate codec db payload startTs
  have sound := firstPacked_sound collate codec db positive startTs n
  have nodup : (timeLog collate db payload startTs).Nodup :=
    (ascending_timeLog db payload startTs).nodup
  generalize firstPacked collate codec db payload startTs n = p at entries cursor more sound
  rw [sound.split] at split
  have returned (r : LogEntrySync) (inLog : r ∈ timeLog collate db payload startTs) :
      r ∈ answered.flatMap fun call => call.2.entries := by
    obtain ⟨inTable, selected⟩ := mem_timeLog.mp inLog
    exact (each r).mpr ⟨inTable, (asked r inTable).mp selected⟩
  rcases followed_cases called followed with ⟨last, rfl⟩ | ⟨goesOn, _, later, -, followed', rfl⟩
  · -- the only response: what it left out is returned nowhere
    have noneLeft : p.rest = [] := by
      rw [more] at last
      simpa using last
    have noneDropped : dropped = [] := by
      by_contra some_
      obtain ⟨r, inDropped⟩ := List.exists_mem_of_ne_nil _ some_
      have here := returned r (by simp [split, inDropped])
      rw [List.flatMap_singleton, entries] at here
      rw [split] at nodup
      exact (List.nodup_append.mp nodup).2.2 r inDropped r (List.mem_append_left _ here) rfl
    rw [split, noneDropped, noneLeft, List.nil_append, List.append_nil]
  · -- a row that is left is neither in this response nor in those after it
    have some_ : p.rest ≠ [] := by
      rw [more] at goesOn
      simpa using goesOn
    have someTaken : p.taken ≠ [] :=
      sound.progress rfl (sound.split ▸ List.append_ne_nil_of_right_ne_nil _ some_)
    obtain ⟨r, inRest⟩ := List.exists_mem_of_ne_nil _ some_
    have there := returned r (by simp [split, inRest])
    rw [List.flatMap_cons, List.mem_append, entries] at there
    rcases there with here | there
    · rw [split] at nodup
      exact absurd rfl ((List.nodup_append.mp (List.nodup_append.mp nodup).2.1).2.2 r here r inRest)
    · rw [cursor] at followed'
      exact absurd there (left_behind backward positive binds reads split someTaken followed' r inRest)

/-- A first response that takes all matching rows is the only one. -/
theorem returnsEachOnce_of_taken (backward : payload.direction = some .backward)
    (positive : payload.limit ≠ some 0)
    (binds : (timestampFilter payload startTs).Binds payload.teamId)
    (asked : AsAsked db payload startTs)
    (resolved : resolveSyncSeqForTimestamp db payload.teamId startTs = some n)
    (taken : (firstPacked collate codec db payload startTs n).taken =
      timeLog collate db payload startTs) : ReturnsEachOnce collate codec db payload startTs := by
  obtain ⟨st, called, entries, -, more⟩ :=
    firstCall_spec collate codec backward positive binds resolved
  obtain ⟨⟨dropped, split, -⟩, -⟩ := firstPage_spec collate codec db payload startTs
  obtain ⟨-, noneLeft⟩ := whole_of_taken positive split taken
  have nodup : (timeLog collate db payload startTs).Nodup :=
    (ascending_timeLog db payload startTs).nodup
  refine ⟨1, [(n, st)], ?_, ?_, ?_, ?_⟩
  · rw [followCursor_succ called, more, noneLeft]
    rfl
  · simpa [entries, taken] using nodup
  · simpa [entries, taken] using nodup
  · intro r
    rw [List.flatMap_singleton, entries, taken, mem_timeLog]
    exact and_congr_right (asked r)

/-- If every matching row is returned and no other, the query selects what was asked for. -/
theorem asAsked_of_returnsEachOnce (dated : db.Dated) (backward : payload.direction = some .backward)
    (positive : payload.limit ≠ some 0)
    (binds : (timestampFilter payload startTs).Binds payload.teamId)
    (reads : codec.Reads db.logEntrySync.rows)
    (resolved : resolveSyncSeqForTimestamp db payload.teamId startTs = some n)
    (returns : ReturnsEachOnce collate codec db payload startTs) : AsAsked db payload startTs := by
  obtain ⟨calls, answered, followed, -, -, each⟩ := returns
  intro r inTable
  constructor
  · intro selected
    obtain ⟨-, ⟨startDateTime, isTime, -⟩, -⟩ := selects_iff.mp selected
    obtain ⟨⟨start, -⟩, -⟩ := toISO_eq_some.mp isTime
    by_cases end_ : ∀ endTs, payload.endTs = some endTs → -maxDate ≤ endTs
    · exact (asAsked_of_dated dated start end_ r inTable).mp selected
    · -- the first response has a row, and no row was received by such an end
      obtain ⟨endTs, isEnd, early⟩ : ∃ endTs, payload.endTs = some endTs ∧ ¬ -maxDate ≤ endTs := by
        simpa using end_
      obtain ⟨st, called, entries, -, -⟩ :=
        firstCall_spec collate codec backward positive binds resolved
      have someTaken := (firstPacked_sound collate codec db positive startTs n).progress rfl
        (firstPage_ne_nil positive (List.ne_nil_of_mem (mem_timeLog.mpr ⟨inTable, selected⟩)))
      obtain ⟨first, mem⟩ := List.exists_mem_of_ne_nil _ someTaken
      have returned : first ∈ answered.flatMap fun call => call.2.entries := by
        rcases followed_cases called followed with ⟨-, rfl⟩ | ⟨-, _, later, -, -, rfl⟩ <;>
          simp [entries, mem]
      obtain ⟨firstInTable, isMatch⟩ := (each first).mp returned
      have := (dated first firstInTable).1
      have := isMatch.2.2.1 endTs isEnd
      omega
  · intro isMatch
    have before := follow_backward_before backward positive binds reads calls rfl followed r
      ((each r).mpr ⟨inTable, isMatch⟩)
    exact (mem_timeLog.mp (mem_rowsBefore.mp before).1).2

end

/-- **Following the cursor backward returns every matching row once exactly when the first response
has them all**, of a call that the database can bind and whose bounds select what was asked for. -/
theorem backward_exactly_once_iff (collate : String ↪ κ) (codec : CursorCodec) (db : Database)
    (payload : LogEntryPullPayload) (startTs : Int) (backward : payload.direction = some .backward)
    (positive : payload.limit ≠ some 0) (reads : codec.Reads db.logEntrySync.rows)
    (dated : db.Dated) :
    ReturnsEachOnce collate codec db payload startTs ↔
      FitsOneResponse collate codec db payload startTs := by
  by_cases binds : (timestampFilter payload startTs).Binds payload.teamId
  · obtain ⟨n, resolved⟩ : ∃ n, resolveSyncSeqForTimestamp db payload.teamId startTs = some n :=
      exists_resolved binds.1 binds.2.1
    by_cases asked : AsAsked db payload startTs
    · rw [fitsOneResponse_iff codec positive binds asked resolved]
      constructor
      · exact taken_of_returnsEachOnce backward positive binds reads asked resolved
      · exact returnsEachOnce_of_taken backward positive binds asked resolved
    · refine iff_of_false (fun returns => asked ?_) fun fits => asked fits.2.1
      exact asAsked_of_returnsEachOnce dated backward positive binds reads resolved returns
  · refine iff_of_false ?_ fun fits => binds fits.1
    rintro ⟨calls, answered, followed, -⟩
    exact not_follow (callByCursor_eq_none binds) calls answered followed

end

/-- A backward pull of the community `"team"`. -/
def pullBackward (limit : Option Nat) (endTs : Option Int) : LogEntryPullPayload where
  teamId := "team"
  userId := "user"
  direction := some .backward
  limit := limit
  endTs := endTs

/-- One row is returned, also up to the greatest safe integer, which no `Date` has. -/
theorem backward_exactly_once_single :
    ReturnsEachOnce (.refl String) codecOfA (singleRow ⟨1, by decide⟩)
      (pullBackward none (some 9007199254740991)) 0 := by
  refine (backward_exactly_once_iff _ _ _ _ _ rfl (by decide) (by decide) (by decide)).mpr ?_
  refine ⟨by decide, by decide, by decide, ?_⟩
  intro n resolved
  obtain rfl : 0 = n := Option.some.inj resolved
  exact (Limits.pack_rest_eq_nil_iff (by nofun)).mp (by decide +kernel)

/-- A row of the community `"team"` that was received at a time. -/
def rowAt (id : String) (receivedAt : Int) (syncSeq : JsNumber.Bigint) : LogEntrySync where
  id := id
  communityId := "team"
  hashedDbId := some "db"
  entry := [1]
  receivedAt := receivedAt
  syncSeq := syncSeq
  createdAt := 0

theorem one_isBigint : JsNumber.bigintMin ≤ 1 ∧ 1 ≤ JsNumber.bigintMax := by decide

theorem two_isBigint : JsNumber.bigintMin ≤ 2 ∧ 2 ≤ JsNumber.bigintMax := by decide

/-- Two rows of one community. -/
def twoRows : Database where
  logEntrySync :=
    { rows := [rowAt "a" 0 ⟨1, one_isBigint⟩, rowAt "b" 1 ⟨2, two_isBigint⟩]
      log_entry_sync_pkey := by decide
      entries_by_syncSeq_idx := by decide }
  logEntrySyncCounter := fun _ => none

def codecOfAB : CursorCodec :=
  listed [(⟨0, "a"⟩, "WyIxOTcwLTAxLTAxVDAwOjAwOjAwLjAwMFoiLCJhIl0"),
    (⟨1, "b"⟩, "WyIxOTcwLTAxLTAxVDAwOjAwOjAwLjAwMVoiLCJiIl0")]

/-- **A row can be lost**: one at a time, the first response has the later of two rows and says that
no page follows. -/
theorem backward_loses_row :
    ¬ ReturnsEachOnce (.refl String) codecOfAB twoRows (pullBackward (some 1) none) 0 := by
  rintro ⟨calls, answered, followed, -, -, each⟩
  have called : callByCursor (.refl String) codecOfAB twoRows
      { pullBackward (some 1) none with cursor := none } 0 =
        some (0, { entries := [rowAt "b" 1 ⟨2, by decide⟩]
                   cursor := some "WyIxOTcwLTAxLTAxVDAwOjAwOjAwLjAwMVoiLCJiIl0"
                   nextCursor := none, usedBytes := 1, hitLimit := true }) := by decide +kernel
  have isMatch : Matches (pullBackward (some 1) none) 0 (rowAt "a" 0 ⟨1, by decide⟩) := by
    refine ⟨rfl, le_refl 0, ?_, ?_, ?_⟩
    all_goals
      intro filter isSome
      cases isSome
  have returned := (each _).mpr ⟨by decide, isMatch⟩
  rcases followed_cases called followed with ⟨_, rfl⟩ | ⟨goesOn, _⟩
  · exact absurd returned (by decide)
  · cases goesOn

end QuietStorage.Sync
