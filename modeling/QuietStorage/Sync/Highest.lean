import QuietStorage.Sync.CursorBackward
import QuietStorage.Sync.Resolve

/-!
# Sync.Highest — what `highestSyncSeq` means

Both pulls answer with the sequence number of the last entry they return. The sequence pull returns its
entries in the order of their numbers, so that is the greatest of them (`highest_of_bySyncSeq`). The
cursor pull returns them in the order of positions, and its last entry has the greatest number only if
the two orders agree (`OrderedPositions`) and the response was not put together from pages that overlap
(`TakesAgain`): a backward response that goes on after its first page starts again behind the end of
it.

A message is stamped before its statement is numbered, so writers that commit against the order of
their positions break the first (`highest_below_returned`). Along runs that commit in the order of
positions the name is right in every state reached (`highest_is_highest`).
-/

set_option autoImplicit false

namespace QuietStorage.Sync

open Lib Storage Packing

/-- The number given is the greatest of the rows, when there are any. -/
def IsHighest (rows : List LogEntrySync) (highest : Option Int) : Prop :=
  rows ≠ [] → ∃ r ∈ rows, highest = some (seqOf r) ∧ ∀ other ∈ rows, seqOf other ≤ seqOf r

instance (rows : List LogEntrySync) (highest : Option Int) : Decidable (IsHighest rows highest) :=
  inferInstanceAs (Decidable (rows ≠ [] → ∃ r ∈ rows, highest = some (seqOf r) ∧ _))

/-- The number of the last row of a log is the greatest. -/
theorem isHighest_of_ascending {rows : List LogEntrySync} (ascending : Cursor.Ascending seqOf rows)
    (exact_ : Exact rows) :
    IsHighest rows (rows.getLast?.map fun r => toSyncSeq r.syncSeq) := by
  intro some_
  obtain ⟨last, isLast⟩ : ∃ last, rows.getLast? = some last :=
    ⟨_, List.getLast?_eq_some_getLast some_⟩
  have mem := List.mem_of_getLast? isLast
  refine ⟨last, mem, ?_, ascending.le_last isLast⟩
  rw [isLast, Option.map_some, toSyncSeq_of_representable (exact_ last mem)]

/-! ## The sequence pull -/

/-- `_getPaginatedLogEntriesBySyncSeq` up to its response, with the number it starts from. -/
def callBySyncSeq (db : Database) (payload : LogEntryPullPayload) : Option (Int × PullState) := do
  let resolvedStartSeq ← resolveStartSeq db payload
  let st ← pullLoop db payload (db.logEntrySync.rows.length + 1) { nextStartSeq := resolvedStartSeq }
  return (resolvedStartSeq, st)

theorem getPaginatedLogEntriesBySyncSeq_eq (db : Database) (payload : LogEntryPullPayload) :
    getPaginatedLogEntriesBySyncSeq db payload =
      (callBySyncSeq db payload).map fun call => response call.1 call.2 := by
  rw [getPaginatedLogEntriesBySyncSeq, callBySyncSeq]
  cases resolveStartSeq db payload with
  | none => rfl
  | some startSeq =>
    simp only [Option.bind_eq_bind, Option.bind_some]
    cases pullLoop db payload (db.logEntrySync.rows.length + 1) { nextStartSeq := startSeq } <;> rfl

/-- A loop that ended read a page, so the database can bind the filter. -/
theorem binds_of_pullLoop {db : Database} {payload : LogEntryPullPayload} {rounds : Nat}
    {st st' : PullState} (ran : pullLoop db payload rounds st = some st') :
    (pageFilter payload st.nextStartSeq).Binds payload.teamId := by
  by_contra unbound
  cases rounds with
  | zero => cases ran
  | succ rounds => simp [pullLoop, Storage.getPaginatedLogEntriesBySyncSeq, unbound] at ran

/-- Nothing is asked for, and nothing returned. -/
theorem pullLoop_of_zero {db : Database} {payload : LogEntryPullPayload} (zero : payload.limit = some 0)
    {rounds : Nat} {st st' : PullState} (ran : pullLoop db payload rounds st = some st') :
    st'.entries = st.entries := by
  cases rounds with
  | zero => cases ran
  | succ rounds =>
    obtain ⟨page, read, ran⟩ := Option.bind_eq_some_iff.mp ran
    obtain ⟨rows, rest, -, items, -, size⟩ := page_spec read
    have noItem : page.items = [] := by
      rw [items, List.map_eq_nil_iff, ← List.length_eq_zero_iff]
      simpa [pageFilter, zero] using size
    simp only [turn, noItem, List.isEmpty_nil, if_true, Option.some.injEq] at ran
    rw [← ran]

/-- **The last entry of the sequence pull has the greatest number.** -/
theorem highest_of_bySyncSeq {db : Database} {payload : LogEntryPullPayload} {call : Int × PullState}
    (exact_ : Exact (db.rowsOf payload.teamId)) (called : callBySyncSeq db payload = some call) :
    ∃ rows, (∀ r ∈ rows, r ∈ db.rowsOf payload.teamId) ∧ call.2.entries = rows.map toItem ∧
      IsHighest rows (response call.1 call.2).highestSyncSeq := by
  obtain ⟨startSeq, -, called⟩ := Option.bind_eq_some_iff.mp called
  obtain ⟨st, ran, isCall⟩ := Option.bind_eq_some_iff.mp called
  cases isCall
  by_cases zero : payload.limit = some 0
  · exact ⟨[], by simp, pullLoop_of_zero zero ran, fun some_ => absurd rfl some_⟩
  · have ofCommunity : ∀ r ∈ Cursor.after seqOf startSeq (pulledLog db payload),
        r ∈ db.rowsOf payload.teamId := fun r => mem_rowsOf_of_mem_after
    obtain ⟨st', rows, rest, ran', split, collected⟩ := pullLoop_spec db payload zero
      (db.logEntrySync.rows.length + 1) { nextStartSeq := startSeq } (binds_of_pullLoop ran)
      (fun r mem => exact_ r (ofCommunity r mem)) (accounts_start _ _) (goesOn_start zero _)
      (fun none_ => absurd rfl none_) (Nat.lt_succ_of_le (length_after_le db payload startSeq))
    cases ran.symm.trans ran'
    have mem : ∀ r ∈ rows, r ∈ db.rowsOf payload.teamId := fun r inRows =>
      ofCommunity r (split ▸ List.mem_append_left _ inRows)
    have entries : st.entries = rows.map toItem := collected.entries
    refine ⟨rows, mem, entries, ?_⟩
    have ascending : Cursor.Ascending seqOf rows :=
      ((ascending_log db payload.teamId _).after startSeq).sublist
        (split ▸ List.sublist_append_left rows rest)
    have highest := isHighest_of_ascending ascending fun r inRows => exact_ r (mem r inRows)
    have same : (response startSeq st).highestSyncSeq =
        rows.getLast?.map fun r => toSyncSeq r.syncSeq := by
      show st.entries.getLast?.map _ = _
      rw [entries, List.getLast?_map, Option.map_map]
      cases last : rows.getLast? with
      | none => rfl
      | some row =>
        have isExact := exact_ row (mem row (List.mem_of_getLast? last))
        show some (toSyncSeq (toSyncSeq row.syncSeq)) = some (toSyncSeq row.syncSeq)
        rw [toSyncSeq_of_representable isExact, toSyncSeq_of_representable isExact]
    rw [same]
    exact highest

/-! ## The cursor pull -/

section
variable {κ : Type} [LinearOrder κ] {collate : String ↪ κ} {codec : CursorCodec}

/-- What a call that answered had to begin with. -/
theorem callByCursor_eq_some {db : Database} {payload : LogEntryPullPayload} {startTs : Int}
    {call : Int × CursorState} (called : callByCursor collate codec db payload startTs = some call) :
    (timestampFilter payload startTs).Binds payload.teamId ∧
      (∃ place, codec.place payload.cursor = some place) ∧
      resolveSyncSeqForTimestamp db payload.teamId startTs = some call.1 ∧
      collectByCursor collate codec db payload startTs call.1 = some call.2 := by
  obtain ⟨n, resolved, called⟩ := Option.bind_eq_some_iff.mp called
  obtain ⟨st, ran, isCall⟩ := Option.bind_eq_some_iff.mp called
  cases isCall
  obtain ⟨page, read, -⟩ := Option.bind_eq_some_iff.mp ran
  obtain ⟨binds, placed⟩ := placed_of_read read
  exact ⟨binds, placed, resolved, ran⟩

/-- A backward response that goes on after its first page, and takes a row of the next: the page
before the cursor stays below both limits, and the first row of the page before its last row fits with
it. That page overlaps the first. -/
def TakesAgain (collate : String ↪ κ) (codec : CursorCodec) (db : Database)
    (payload : LogEntryPullPayload) (startTs : Int) : Prop :=
  payload.direction = some .backward ∧ ∃ place n page last first,
    codec.place payload.cursor = some (some place) ∧
    resolveSyncSeqForTimestamp db payload.teamId startTs = some n ∧
    page = (pageBefore collate codec db payload startTs (some place)).items ∧
    (responseLimits codec payload.limit n).Unstopped true 0 0 page ∧
    page.getLast? = some last ∧
    (pageBefore collate codec db payload startTs (some (positionOf last))).items.head? = some first ∧
    (responseLimits codec payload.limit n).bytes page + first.entry.length +
      (responseLimits codec payload.limit n).overhead first true ≤ maxBytes

theorem sublist_pageBefore (db : Database) (payload : LogEntryPullPayload) (startTs : Int)
    (place : Option Position) :
    (pageBefore collate codec db payload startTs place).items.Sublist
      (timeLog collate db payload startTs) :=
  (List.drop_sublist _ _).trans List.filter_sublist

/-- The page that a backward response goes on with overlaps the one before it. Where no row is taken
again, nothing of it is taken. -/
theorem secondRound_done {db : Database} {payload : LogEntryPullPayload} {startTs n : Int}
    {place : Position} {last : LogEntrySync} (st : CursorState)
    (backward : payload.direction = some .backward)
    (placed : codec.place payload.cursor = some (some place))
    (resolved : resolveSyncSeqForTimestamp db payload.teamId startTs = some n)
    (once : ¬ TakesAgain collate codec db payload startTs)
    (unstopped : (responseLimits codec payload.limit n).Unstopped true 0 0
      (pageBefore collate codec db payload startTs (some place)).items)
    (isLast : (pageBefore collate codec db payload startTs (some place)).items.getLast? = some last)
    (isOpen : st.Open)
    (entries : st.entries = (pageBefore collate codec db payload startTs (some place)).items)
    (used : st.usedBytes = (responseLimits codec payload.limit n).bytes st.entries) :
    ∃ st', cursorRound codec payload.limit n
        (pageBefore collate codec db payload startTs (some (positionOf last))) st = .done st' ∧
      st'.entries = st.entries := by
  have ends := backward_ends collate codec (timeLog collate db payload startTs)
    (min (payload.limit.getD 200) 200) (some (positionOf last))
  cases head :
      (pageBefore collate codec db payload startTs (some (positionOf last))).items.head? with
  | none => exact ⟨_, round_empty (List.head?_eq_none_iff.mp head), rfl⟩
  | some first =>
    have some_ : st.entries ≠ [] := by
      rw [entries]
      exact List.ne_nil_of_mem (List.mem_of_getLast? isLast)
    refine round_over head ends isOpen rfl some_ ?_
    by_contra fits
    rw [used, entries] at fits
    exact once ⟨backward, place, n, _, last, first, placed, resolved, rfl, unstopped, isLast, head,
      Nat.le_of_not_lt fits⟩

/-- A backward response from a cursor that takes no row again is part of the log, in its order. -/
theorem backward_sublist {db : Database} {payload : LogEntryPullPayload} {startTs n : Int}
    {st : CursorState} {place : Position} (backward : payload.direction = some .backward)
    (positive : payload.limit ≠ some 0)
    (binds : (timestampFilter payload startTs).Binds payload.teamId)
    (reads : codec.Reads db.logEntrySync.rows)
    (placed : codec.place payload.cursor = some (some place))
    (resolved : resolveSyncSeqForTimestamp db payload.teamId startTs = some n)
    (ran : collectByCursor collate codec db payload startTs n = some st)
    (once : ¬ TakesAgain collate codec db payload startTs) :
    st.entries.Sublist (timeLog collate db payload startTs) := by
  have read : Storage.getPaginatedLogEntries collate codec db payload.teamId
      (timestampFilter payload startTs) payload.cursor =
        some (pageBefore collate codec db payload startTs (some place)) :=
    read_backward backward binds placed
  have ends := backward_ends collate codec (timeLog collate db payload startTs)
    (min (payload.limit.getD 200) 200) (some place)
  have inLog : (pageBefore collate codec db payload startTs (some place)).items.Sublist
      (timeLog collate db payload startTs) := sublist_pageBefore db payload startTs (some place)
  have start : CursorState.Open { cursor := payload.cursor, nextCursor := payload.cursor } := ⟨rfl, rfl⟩
  by_cases none_ : (pageBefore collate codec db payload startTs (some place)).items = []
  · cases ran.symm.trans (cursorLoop_done _ read (round_empty none_))
    exact List.nil_sublist _
  have sound : (responseLimits codec payload.limit n).Sound true 0 0
      (pageBefore collate codec db payload startTs (some place)).items
      (packPage codec payload.limit n (pageBefore collate codec db payload startTs (some place))
        { cursor := payload.cursor, nextCursor := payload.cursor }) :=
    Limits.pack_sound true _ 0 0 (room_start positive n)
  have stopped := @round_stopped codec payload.limit n _ _ none_ ends start
  have goesOn := @round_more codec payload.limit n _ _ none_ ends start
  have unstopped : (packPage codec payload.limit n
      (pageBefore collate codec db payload startTs (some place))
      { cursor := payload.cursor, nextCursor := payload.cursor }).stop = .ended →
      (responseLimits codec payload.limit n).Unstopped true 0 0
        (pageBefore collate codec db payload startTs (some place)).items :=
    Limits.unstopped_of_ended
  generalize packPage codec payload.limit n (pageBefore collate codec db payload startTs (some place))
    { cursor := payload.cursor, nextCursor := payload.cursor } = p at sound stopped goesOn unstopped
  by_cases ended : p.stop = .ended
  swap
  · cases ran.symm.trans (cursorLoop_done _ read (stopped ended))
    refine List.Sublist.trans ?_ inLog
    rw [sound.split]
    exact List.sublist_append_left _ _
  -- the first page was taken whole, and nothing of the second is taken
  obtain ⟨whole, -⟩ := sound.ended ended
  have taken : p.taken = (pageBefore collate codec db payload startTs (some place)).items :=
    sound.taken_eq whole
  obtain ⟨last, isLast⟩ : ∃ last,
      (pageBefore collate codec db payload startTs (some place)).items.getLast? = some last :=
    ⟨_, List.getLast?_eq_some_getLast none_⟩
  have inTable : last ∈ db.logEntrySync.rows :=
    mem_rows_of_mem_timeLog last (inLog.subset (List.mem_of_getLast? isLast))
  have more := goesOn ended rfl
  rw [ends, lastCursor, isLast, Option.map_some, Option.some_or] at more
  obtain ⟨rounds, isRounds⟩ : ∃ rounds, db.logEntrySync.rows.length = rounds + 1 :=
    ⟨_, (Nat.succ_pred_eq_of_pos (List.length_pos_of_mem inTable)).symm⟩
  have read' : Storage.getPaginatedLogEntries collate codec db payload.teamId
      (timestampFilter payload startTs) (some (codec.cursorOf last)) =
        some (pageBefore collate codec db payload startTs (some (positionOf last))) :=
    read_backward backward binds
      (by simp [CursorCodec.place, CursorCodec.cursorOf, reads last inTable])
  have ran := (cursorLoop_more _ read more).symm.trans ran
  rw [isRounds] at ran
  obtain ⟨st', done, entries⟩ := secondRound_done
    { CursorState.fill codec { cursor := payload.cursor, nextCursor := payload.cursor } true p with
      nextCursor := some (codec.cursorOf last) }
    backward placed resolved once (unstopped ended) isLast
    ⟨by simp [CursorState.fill, ended], by simp [CursorState.fill, ended]⟩
    (by simp [CursorState.fill, taken])
    (by simp [CursorState.fill, Limits.bytes, responseLimits])
  cases ran.symm.trans (cursorLoop_done _ read' done)
  rw [entries]
  simpa [CursorState.fill, taken] using inLog

/-- Nothing is asked for, and nothing returned. -/
theorem collectByCursor_of_zero {db : Database} {payload : LogEntryPullPayload} {startTs n : Int}
    {st : CursorState} (zero : payload.limit = some 0)
    (ran : collectByCursor collate codec db payload startTs n = some st) : st.entries = [] := by
  obtain ⟨page, read, -⟩ := Option.bind_eq_some_iff.mp ran
  obtain ⟨binds, place, placed⟩ := placed_of_read read
  have noItem : page.items = [] := by
    by_cases backward : payload.direction = some .backward
    · cases read.symm.trans (read_backward backward binds placed)
      simp [findByCursorBackward, timestampFilter, zero]
    · cases read.symm.trans (read_forward backward binds placed)
      simp [findByCursorForward, timestampFilter, zero]
  cases ran.symm.trans (cursorLoop_done _ read (round_empty noItem))
  rfl

/-- **A response is part of the log, in its order**, unless it takes rows again. -/
theorem byCursor_sublist {db : Database} {payload : LogEntryPullPayload} {startTs : Int}
    {call : Int × CursorState} (reads : codec.Reads db.logEntrySync.rows)
    (called : callByCursor collate codec db payload startTs = some call)
    (once : ¬ TakesAgain collate codec db payload startTs) :
    call.2.entries.Sublist (timeLog collate db payload startTs) := by
  obtain ⟨n, st⟩ := call
  obtain ⟨binds, ⟨place, placed⟩, resolved, ran⟩ := callByCursor_eq_some called
  by_cases zero : payload.limit = some 0
  · rw [collectByCursor_of_zero zero ran]
    exact List.nil_sublist _
  by_cases backward : payload.direction = some .backward
  · cases cursor : payload.cursor with
    | none =>
      obtain ⟨st, called', entries, -⟩ := firstCall_spec collate codec backward zero binds resolved
      rw [← cursor] at called'
      cases called.symm.trans called'
      rw [entries]
      have sound := Limits.pack_sound (L := responseLimits codec payload.limit n) false
        (firstPage collate codec db payload startTs).items 0 0 (room_start zero n)
      have page : (firstPage collate codec db payload startTs).items.Sublist
          (timeLog collate db payload startTs) := sublist_pageBefore db payload startTs none
      rw [sound.split] at page
      exact (List.sublist_append_left _ _).trans page
    | some text =>
      rw [cursor] at placed
      obtain ⟨position, decoded, rfl⟩ := Option.map_eq_some_iff.mp placed
      exact backward_sublist backward zero binds reads (cursor ▸ placed) resolved ran once
  · obtain ⟨st, rows, rest, called', split, answers⟩ :=
      forwardCall_spec collate backward zero binds reads placed resolved
    cases called.symm.trans called'
    rw [answers.entries]
    refine (List.sublist_append_left rows rest).trans ?_
    rw [← split]
    exact List.filter_sublist

/-! ## The order of numbers and of positions -/

/-- Rows of a community have their numbers in the order of their positions. -/
def OrderedPositions (collate : String ↪ κ) (db : Database) : Prop :=
  ∀ a ∈ db.logEntrySync.rows, ∀ b ∈ db.logEntrySync.rows, a.communityId = b.communityId →
    timeOf collate a < timeOf collate b → seqOf a < seqOf b

/-- **The last entry of the cursor pull has the greatest number** where the orders agree. -/
theorem highest_of_byCursor {db : Database} {payload : LogEntryPullPayload} {startTs : Int}
    {call : Int × CursorState} (reads : codec.Reads db.logEntrySync.rows)
    (exact_ : Exact db.logEntrySync.rows) (ordered : OrderedPositions collate db)
    (called : callByCursor collate codec db payload startTs = some call)
    (once : ¬ TakesAgain collate codec db payload startTs) :
    IsHighest call.2.entries (cursorResponse call.1 call.2).highestSyncSeq := by
  have part := byCursor_sublist reads called once
  have ofTeam : ∀ r ∈ call.2.entries, r ∈ db.logEntrySync.rows ∧ r.communityId = payload.teamId := by
    intro r mem
    obtain ⟨inTable, selected⟩ := mem_timeLog.mp (part.subset mem)
    exact ⟨inTable, (selects_iff.mp selected).1⟩
  have inTime : Cursor.Ascending (timeOf collate) call.2.entries :=
    (ascending_timeLog db payload startTs).sublist part
  apply isHighest_of_ascending
  · refine List.Pairwise.imp_of_mem ?_ inTime
    intro a b memA memB before
    obtain ⟨rowA, teamA⟩ := ofTeam a memA
    obtain ⟨rowB, teamB⟩ := ofTeam b memB
    exact ordered a rowA b rowB (teamA.trans teamB.symm) before
  · exact fun r mem => exact_ r (ofTeam r mem).1

end

/-! ## Runs -/

/-- A condition on the rows that are committed: the database before, what is written, and the number
that was taken for it. It is asked of a statement that is about to run if its id is free. -/
def CommitMeets (C : Database → LogSyncEntry → JsNumber.Bigint → Prop) (db : Database) (call : Call) :
    Prop :=
  match call.stage with
  | .allocated taken =>
    (∀ row ∈ db.logEntrySync.rows, row.id ≠ call.payload.cid) → C db call.payload taken.syncSeq
  | _ => True

/-- The condition on a step of the handlers. -/
def CommitsMeet (C : Database → LogSyncEntry → JsNumber.Bigint → Prop) (s : HandlerState) :
    HandlerAction → Prop
  | .insert k => ∀ call ∈ s.storage.calls k, CommitMeets C s.storage.db call
  | _ => True

section
variable (C : Database → LogSyncEntry → JsNumber.Bigint → Prop) [∀ db payload n, Decidable (C db payload n)]

instance (db : Database) : ∀ call, Decidable (CommitMeets C db call)
  | { payload, stage := .allocated taken, .. } =>
    inferInstanceAs (Decidable ((∀ row ∈ db.logEntrySync.rows, row.id ≠ payload.cid) →
      C db payload taken.syncSeq))
  | { stage := .started _, .. } | { stage := .returned _, .. } | { stage := .failed _, .. } =>
    .isTrue trivial

instance (s : HandlerState) : ∀ a, Decidable (CommitsMeet C s a)
  | .insert k => inferInstanceAs (Decidable (∀ call ∈ s.storage.calls k, CommitMeets C s.storage.db call))
  | .receive .. | .submit .. | .allocate _ | .respond .. => .isTrue trivial

end

/-- The number is a number of the language. -/
abbrev CommitsExact : HandlerState → HandlerAction → Prop :=
  CommitsMeet fun _ _ syncSeq => JsNumber.Representable syncSeq

/-- The row is later than those of its community, in the order of positions. -/
abbrev CommitsLatest {κ : Type} [LinearOrder κ] (collate : String ↪ κ) :
    HandlerState → HandlerAction → Prop :=
  CommitsMeet fun db payload _ => ∀ row ∈ db.rowsOf payload.communityId,
    timeOf collate row < receivedKey collate payload.receivedAt payload.cid

/-- What a step of the storage does to the table: it leaves it, or a statement with a free id and a
number above those of its community appends its row. -/
theorem table_step {s s' : Storage.State} {b : Storage.Action} (inv : Storage.Inv s)
    (taken : Storage.Step s b s') :
    s'.db.logEntrySync.rows = s.db.logEntrySync.rows ∨
      ∃ k payload createdAt taken, b = .insert k ∧
        s.calls k = some { payload, createdAt, stage := .allocated taken } ∧
        (∀ row ∈ s.db.logEntrySync.rows, row.id ≠ payload.cid) ∧
        (∀ row ∈ s.db.rowsOf payload.communityId, (row.syncSeq : Int) < taken.syncSeq) ∧
        s'.db.logEntrySync.rows =
          s.db.logEntrySync.rows ++ [rowOf payload createdAt taken.syncSeq] := by
  cases taken with
  | committed k payload createdAt al table holding inserted =>
    obtain ⟨appended, free⟩ := LogEntrySyncTable.insert_eq_ok inserted
    obtain ⟨-, -, above⟩ := inv k _ holding
    exact .inr ⟨k, payload, createdAt, al, rfl, holding, free, above, appended⟩
  | submitted => exact .inl rfl
  | exhausted => exact .inl rfl
  | allocated => exact .inl rfl
  | refused => exact .inl rfl
  | answered => exact .inl rfl

/-- **What a step of the handlers does to the table**: it leaves it, or it appends a row with a number
above those of its community, of a statement that meets the conditions on commits. -/
theorem table_handlerStep {serialize : EncryptedAndSignedPayload → Bytes} {s s' : HandlerState}
    {a : HandlerAction} (inv : Storage.Inv s.storage) (taken : handlerStep serialize s a = some s') :
    Storage.Inv s'.storage ∧
      (s'.storage.db.logEntrySync.rows = s.storage.db.logEntrySync.rows ∨
        ∃ payload createdAt syncSeq,
          s'.storage.db.logEntrySync.rows =
            s.storage.db.logEntrySync.rows ++ [rowOf payload createdAt syncSeq] ∧
          (∀ row ∈ s.storage.db.rowsOf payload.communityId, (row.syncSeq : Int) < syncSeq) ∧
          ∀ C, CommitsMeet C s a → C s.storage.db payload syncSeq) := by
  rcases storage_of_handlerStep taken with same | ⟨b, moved, inserts⟩
  · rw [same]
    exact ⟨inv, .inl rfl⟩
  · refine ⟨inv_step inv moved, (table_step inv moved).imp id ?_⟩
    rintro ⟨k, payload, createdAt, al, rfl, holding, free, above, appended⟩
    cases inserts k rfl
    exact ⟨payload, createdAt, al.syncSeq, appended, above, fun C meets => meets _ holding free⟩

/-- A step that commits exact numbers keeps them exact. -/
theorem exact_step {serialize : EncryptedAndSignedPayload → Bytes} {s s' : HandlerState}
    {a : HandlerAction} (inv : Storage.Inv s.storage) (exact_ : Exact s.storage.db.logEntrySync.rows)
    (meets : CommitsExact s a) (taken : handlerStep serialize s a = some s') :
    Exact s'.storage.db.logEntrySync.rows := by
  obtain ⟨-, same | ⟨payload, createdAt, syncSeq, appended, -, condition⟩⟩ :=
    table_handlerStep inv taken
  · rw [same]
    exact exact_
  · rw [appended]
    intro r mem
    rcases List.mem_append.mp mem with old | new
    · exact exact_ r old
    · rw [List.mem_singleton.mp new]
      exact condition _ meets

/-- A step that commits the latest position keeps the orders in agreement. -/
theorem ordered_step {κ : Type} [LinearOrder κ] {collate : String ↪ κ}
    {serialize : EncryptedAndSignedPayload → Bytes} {s s' : HandlerState} {a : HandlerAction}
    (inv : Storage.Inv s.storage) (ordered : OrderedPositions collate s.storage.db)
    (meets : CommitsLatest collate s a) (taken : handlerStep serialize s a = some s') :
    OrderedPositions collate s'.storage.db := by
  obtain ⟨-, same | ⟨payload, createdAt, syncSeq, appended, above, condition⟩⟩ :=
    table_handlerStep inv taken
  · intro a memA b memB
    rw [same] at memA memB
    exact ordered a memA b memB
  · have latest := condition _ meets
    intro a memA b memB community before
    rw [appended, List.mem_append, List.mem_singleton] at memA memB
    rcases memA with oldA | rfl <;> rcases memB with oldB | rfl
    · exact ordered a oldA b oldB community before
    · exact above a (Database.mem_rowsOf.mpr ⟨oldA, community⟩)
    · exact absurd before (lt_asymm (latest b (Database.mem_rowsOf.mpr ⟨oldB, community.symm⟩)))
    · exact absurd before (lt_irrefl _)

/-! ## The greatest number of a response -/

/-- Every response of the sequence pull gives the greatest number of the rows it returns. -/
def HighestBySyncSeq (db : Database) : Prop :=
  ∀ payload call, callBySyncSeq db payload = some call →
    ∃ rows, (∀ r ∈ rows, r ∈ db.rowsOf payload.teamId) ∧ call.2.entries = rows.map toItem ∧
      IsHighest rows (response call.1 call.2).highestSyncSeq

/-- Every response of the cursor pull that takes no row again does. -/
def HighestByCursor {κ : Type} [LinearOrder κ] (collate : String ↪ κ) (codec : CursorCodec)
    (db : Database) : Prop :=
  ∀ payload startTs call, callByCursor collate codec db payload startTs = some call →
    ¬ TakesAgain collate codec db payload startTs →
      IsHighest call.2.entries (cursorResponse call.1 call.2).highestSyncSeq

/-- **`highestSyncSeq` is the highest** in every state of every run that commits exact numbers: of the
sequence pull always, of the cursor pull if the run also commits in the order of positions and the
response does not take rows again. -/
theorem highest_is_highest {κ : Type} [LinearOrder κ] (collate : String ↪ κ) (codec : CursorCodec)
    (serialize : EncryptedAndSignedPayload → Bytes) (db : Database) (exact_ : Exact db.logEntrySync.rows)
    (ordered : OrderedPositions collate db) (as : List HandlerAction) (s : HandlerState)
    (along : Along (handlerStep serialize) CommitsExact (.start db) as)
    (ran : run (handlerStep serialize) (.start db) as = some s)
    (reads : codec.Reads s.storage.db.logEntrySync.rows) :
    HighestBySyncSeq s.storage.db ∧
      (Along (handlerStep serialize) (CommitsLatest collate) (.start db) as →
        HighestByCursor collate codec s.storage.db) := by
  have started := inv_start db
  obtain ⟨inv, isExact⟩ := run_keeps_along
    (P := fun s : HandlerState => Storage.Inv s.storage ∧ Exact s.storage.db.logEntrySync.rows)
    (fun s a s' holds meets taken =>
      ⟨(table_handlerStep holds.1 taken).1, exact_step holds.1 holds.2 meets taken⟩)
    ⟨started, exact_⟩ along ran
  refine ⟨fun payload call called => ?_, fun latest payload startTs call called once => ?_⟩
  · refine highest_of_bySyncSeq (fun r mem => ?_) called
    exact isExact r (Database.mem_rowsOf.mp mem).1
  · obtain ⟨-, inOrder⟩ := run_keeps_along
      (P := fun s : HandlerState => Storage.Inv s.storage ∧ OrderedPositions collate s.storage.db)
      (fun s a s' holds meets taken =>
        ⟨(table_handlerStep holds.1 taken).1, ordered_step holds.1 holds.2 meets taken⟩)
      ⟨started, ordered⟩ latest ran
    exact highest_of_byCursor reads isExact inOrder called once

/-- The cursors of the rows that two stamped messages leave, and of a time after both. -/
def codecOfStamps : CursorCodec :=
  listed [(⟨100, "a"⟩, "WyIxOTcwLTAxLTAxVDAwOjAwOjAwLjEwMFoiLCJhIl0"),
    (⟨200, "b"⟩, "WyIxOTcwLTAxLTAxVDAwOjAwOjAwLjIwMFoiLCJiIl0"),
    (⟨300, "c"⟩, "WyIxOTcwLTAxLTAxVDAwOjAwOjAwLjMwMFoiLCJjIl0")]

theorem highest_is_highest_inOrder :
    ∃ s, run (handlerStep packContents) (.start .empty) numberedInOrder = some s ∧
      HighestBySyncSeq s.storage.db ∧ HighestByCursor (.refl String) codecOfStamps s.storage.db := by
  obtain ⟨s, ran, reads⟩ : ∃ s, run (handlerStep packContents) (.start .empty) numberedInOrder = some s ∧
      codecOfStamps.Reads s.storage.db.logEntrySync.rows := ⟨_, rfl, by decide⟩
  have noRow : OrderedPositions (.refl String) .empty := by
    intro a none_
    cases none_
  obtain ⟨bySyncSeq, byCursor⟩ := highest_is_highest (.refl String) codecOfStamps packContents .empty
    (by decide) noRow numberedInOrder s (by decide) ran reads
  exact ⟨s, ran, bySyncSeq, byCursor (by decide)⟩

/-- A row of the community `"one"` that was written from a message of `twoStamps`. -/
def stampedRow (id : String) (entry : Bytes) (receivedAt : Int) (syncSeq : JsNumber.Bigint) :
    LogEntrySync where
  id := id
  communityId := "one"
  hashedDbId := some "db"
  entry := entry
  receivedAt := receivedAt
  syncSeq := syncSeq
  createdAt := 0

/-- A pull of the community `"one"` by time. -/
def pullByTime (direction : Direction) (cursor : Option String) : LogEntryPullPayload where
  teamId := "one"
  userId := "user"
  direction := some direction
  cursor := cursor

/-- **`highestSyncSeq` need not be the highest**: the rows of two messages that were numbered against
their stamps come back with the number of the one received last, which is the lesser; and rows in order
come back with the lesser when a backward response reads the first of them again. -/
theorem highest_below_returned :
    (∃ s, run (handlerStep packContents) (.start .empty) numberedAgainstStamps = some s ∧
      ∃ call, callByCursor (.refl String) codecOfStamps s.storage.db (pullByTime .forward none) 0 =
          some call ∧
        ¬ IsHighest call.2.entries (cursorResponse call.1 call.2).highestSyncSeq) ∧
      ∃ s, run (handlerStep packContents) (.start .empty) numberedInOrder = some s ∧
        ∃ call, callByCursor (.refl String) codecOfStamps s.storage.db (pullByTime .backward
            (some "WyIxOTcwLTAxLTAxVDAwOjAwOjAwLjMwMFoiLCJjIl0")) 0 = some call ∧
          ¬ IsHighest call.2.entries (cursorResponse call.1 call.2).highestSyncSeq := by
  constructor
  · refine ⟨_, rfl, (0, { entries := [stampedRow "a" [1] 100 ⟨2, by decide⟩,
                                      stampedRow "b" [2] 200 ⟨1, by decide⟩]
                          cursor := some "WyIxOTcwLTAxLTAxVDAwOjAwOjAwLjIwMFoiLCJiIl0"
                          nextCursor := none
                          usedBytes := 2 }), ?_, ?_⟩
    · decide +kernel
    · decide
  · refine ⟨_, rfl, (0, { entries := [stampedRow "a" [1] 100 ⟨1, by decide⟩,
                                      stampedRow "b" [2] 200 ⟨2, by decide⟩,
                                      stampedRow "a" [1] 100 ⟨1, by decide⟩]
                          cursor := some "WyIxOTcwLTAxLTAxVDAwOjAwOjAwLjEwMFoiLCJhIl0"
                          nextCursor := some "WyIxOTcwLTAxLTAxVDAwOjAwOjAwLjEwMFoiLCJhIl0"
                          usedBytes := 3 }), ?_, ?_⟩
    · decide +kernel
    · decide

end QuietStorage.Sync
