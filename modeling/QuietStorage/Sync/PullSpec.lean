import QuietStorage.Sync.Pull

/-!
# Sync.PullSpec — paging refines the plain read

On a table that does not change, a response of the sync-sequence pull is a front of the matching
rows, as long as the limits allow and never empty when a row matches, and `hasNextPage` says exactly
whether rows remain (`pullLoop_spec`). Asking again from `highestSyncSeq` until `hasNextPage` is
false gives the plain read of the community, restricted to the filters (`pullAll_eq`).

Two things bound this. A sequence number that is no number of the language comes back rounded, so
`highestSyncSeq` is not the row's (`paging_of_any_table_fails`): the theorem is about tables whose
numbers are exact. A parameter that the database cannot bind gets no response.
-/

set_option autoImplicit false

namespace QuietStorage.Sync

open Lib Storage

/-! ## One response -/

/-- **The outer loop takes a front of the log** when it has a round for each row and one more. -/
theorem pullLoop_spec (db : Database) (payload : LogEntryPullPayload)
    (positive : payload.limit ≠ some 0) (rounds : Nat) (st : PullState)
    (binds : (pageFilter payload st.nextStartSeq).Binds payload.teamId)
    (exact_ : Exact (Cursor.after seqOf st.nextStartSeq (pulledLog db payload)))
    (accounts : Accounts payload.limit st) (goesOn : GoesOn payload.limit st)
    (follows : st.entries ≠ [] →
      Cursor.after seqOf st.nextStartSeq (pulledLog db payload) ≠ [])
    (enough : (Cursor.after seqOf st.nextStartSeq (pulledLog db payload)).length < rounds) :
    ∃ st' rows rest, pullLoop db payload rounds st = some st' ∧
      Cursor.after seqOf st.nextStartSeq (pulledLog db payload) = rows ++ rest ∧
      Collected payload.limit rows rest st st' := by
  induction rounds generalizing st with
  | zero => exact absurd enough (Nat.not_lt_zero _)
  | succ rounds ih =>
    obtain ⟨page, read⟩ : ∃ page, Storage.getPaginatedLogEntriesBySyncSeq db payload.teamId
        (pageFilter payload st.nextStartSeq) = some page := ⟨_, if_pos binds⟩
    obtain ⟨rows, rest, split_, sound⟩ :=
      turn_spec payload exact_ positive accounts goesOn follows read
    simp only [pullLoop, read, Option.bind_eq_bind, Option.bind_some]
    cases round : turn payload.limit page st with
    | done st' =>
      rw [round] at sound
      exact ⟨st', rows, rest, rfl, split_, sound⟩
    | more st' =>
      rw [round] at sound
      obtain ⟨collected, goesOn', someRow, someRest⟩ := sound
      have next := collected.after_next (ascending_log db payload.teamId _) split_
      have exactRest : Exact rest := fun r mem => exact_ r (split_ ▸ List.mem_append_right _ mem)
      have shorter : rest.length < rounds := by
        have := List.length_pos_of_ne_nil someRow
        rw [split_, List.length_append] at enough
        omega
      have binds' : (pageFilter payload st'.nextStartSeq).Binds payload.teamId := by
        obtain ⟨team, -, others⟩ := binds
        refine ⟨team, ?_, others⟩
        show BindsBigint st'.nextStartSeq
        rw [collected.next]
        obtain ⟨front, last, isLast⟩ := List.eq_nil_or_concat'  rows |>.resolve_left someRow
        rw [isLast, List.getLast?_concat]
        exact last.syncSeq.property
      obtain ⟨st'', rows', rest', ran, split', collected'⟩ :=
        ih st' binds' (next.symm ▸ exactRest) collected.accounts goesOn'
          (fun _ => next.symm ▸ someRest) (next.symm ▸ shorter)
      have restIs : rest = rows' ++ rest' := next.symm.trans split'
      subst restIs
      exact ⟨st'', rows ++ rows', rest', ran, by rw [split_, List.append_assoc],
        collected.trans collected' someRow⟩

/-- The loops start with nothing collected. -/
theorem accounts_start (limit : Option Nat) (startSeq : Int) :
    Accounts limit { nextStartSeq := startSeq } :=
  ⟨rfl, .inl (Nat.zero_le 1), fun n _ => Nat.zero_le n⟩

theorem goesOn_start {limit : Option Nat} (positive : limit ≠ some 0) (startSeq : Int) :
    GoesOn limit { nextStartSeq := startSeq } := by
  refine ⟨rfl, rfl, ?_, fun none_ => absurd rfl none_⟩
  exact limit_pos positive

/-- The log of a filter has no more rows than the table. -/
theorem length_after_le (db : Database) (payload : LogEntryPullPayload) (startSeq : Int) :
    (Cursor.after seqOf startSeq (pulledLog db payload)).length ≤ db.logEntrySync.rows.length := by
  refine le_trans (List.length_filter_le _ _) ?_
  rw [pulledLog, log, orderBySyncSeq, List.length_insertionSort]
  exact List.length_filter_le _ _

/-- Only rows of the community are pulled. -/
theorem mem_rowsOf_of_mem_after {db : Database} {payload : LogEntryPullPayload} {startSeq : Int}
    {r : LogEntrySync} (mem : r ∈ Cursor.after seqOf startSeq (pulledLog db payload)) :
    r ∈ db.rowsOf payload.teamId := by
  obtain ⟨inTable, selected⟩ := mem_log.mp (Cursor.mem_after.mp mem).1
  exact Database.mem_rowsOf.mpr ⟨inTable, community_of_selects selected⟩

/-- What a response owes the read it pages: a front of the matching rows, not empty if a row
matches, within the count and, past the first entry, within the bytes; whether rows remain; and the
number of its last row. -/
def RefinesRead (db : Database) (payload : LogEntryPullPayload) (startSeq : Int) : Prop :=
  ∃ response rows rest, getPaginatedLogEntriesBySyncSeq db payload = some response ∧
    matching db payload.teamId (pageFilter payload startSeq) = rows ++ rest ∧
    response.entries = rows.map (·.entry) ∧
    (rows ++ rest ≠ [] → rows ≠ []) ∧
    (∀ n, payload.limit = some n → rows.length ≤ n) ∧
    (rows.length ≤ 1 ∨ ∃ last, rows.getLast? = some last ∧
      (rows.map fun r => r.entry.length).sum + metadataBytes (seqOf last) response.hasNextPage ≤
        maxBytes) ∧
    response.hasNextPage = !rest.isEmpty ∧
    response.highestSyncSeq = rows.getLast?.map seqOf

/-- The response of a call, by the rows it took and left. -/
theorem response_spec {db : Database} (payload : LogEntryPullPayload) {startSeq : Int}
    (start : payload.startSeq = some startSeq)
    (binds : (pageFilter payload startSeq).Binds payload.teamId)
    (positive : payload.limit ≠ some 0) (exact_ : Exact (db.rowsOf payload.teamId)) :
    ∃ st rows rest, getPaginatedLogEntriesBySyncSeq db payload = some (response startSeq st) ∧
      Cursor.after seqOf startSeq (pulledLog db payload) = rows ++ rest ∧
      Collected payload.limit rows rest { nextStartSeq := startSeq } st ∧
      (response startSeq st).entries = rows.map (·.entry) ∧
      (response startSeq st).highestSyncSeq = rows.getLast?.map seqOf := by
  have exactAfter : Exact (Cursor.after seqOf startSeq (pulledLog db payload)) :=
    fun r mem => exact_ r (mem_rowsOf_of_mem_after mem)
  obtain ⟨st, rows, rest, ran, split_, collected⟩ := pullLoop_spec db payload positive
    (db.logEntrySync.rows.length + 1) { nextStartSeq := startSeq } binds exactAfter
    (accounts_start _ _) (goesOn_start positive _) (fun none_ => absurd rfl none_)
    (Nat.lt_succ_of_le (length_after_le db payload startSeq))
  have entries : st.entries = rows.map toItem := collected.entries
  refine ⟨st, rows, rest, ?_, split_, collected, ?_, ?_⟩
  · simp only [getPaginatedLogEntriesBySyncSeq, resolveStartSeq, start, ran, Option.bind_eq_bind,
      Option.bind_some, Option.pure_def]
  · show st.entries.map (·.entry) = _
    rw [entries, List.map_map]
    rfl
  · show st.entries.getLast?.map _ = _
    rw [entries, List.getLast?_map, Option.map_map]
    cases last : rows.getLast? with
    | none => rfl
    | some row =>
      have inAfter : row ∈ Cursor.after seqOf startSeq (pulledLog db payload) :=
        split_ ▸ List.mem_append_left _ (List.mem_of_getLast? last)
      have isExact : toSyncSeq row.syncSeq = seqOf row :=
        toSyncSeq_of_representable (exactAfter row inAfter)
      show some (toSyncSeq (toSyncSeq row.syncSeq)) = some (seqOf row)
      rw [isExact, isExact]

theorem refinesRead {db : Database} {payload : LogEntryPullPayload} {startSeq : Int}
    (start : payload.startSeq = some startSeq)
    (binds : (pageFilter payload startSeq).Binds payload.teamId)
    (positive : payload.limit ≠ some 0) (exact_ : Exact (db.rowsOf payload.teamId)) :
    RefinesRead db payload startSeq := by
  obtain ⟨st, rows, rest, called, split_, collected, entries, highest⟩ :=
    response_spec payload start binds positive exact_
  have taken : st.entries = rows.map toItem := collected.entries
  refine ⟨response startSeq st, rows, rest, called, ?_, entries, collected.progress rfl, ?_, ?_,
    collected.hasNextPage, highest⟩
  · rw [matching_eq_after]
    exact split_
  · intro n isLimit
    have := collected.accounts.limited n isLimit
    rwa [taken, List.length_map] at this
  · refine collected.accounts.fits.imp (fun one => ?_) ?_
    · rwa [taken, List.length_map] at one
    · intro ⟨item, isLast, fits⟩
      rw [taken, List.getLast?_map, Option.map_eq_some_iff] at isLast
      obtain ⟨last, isLast, rfl⟩ := isLast
      refine ⟨last, isLast, ?_⟩
      have inAfter : last ∈ Cursor.after seqOf startSeq (pulledLog db payload) :=
        split_ ▸ List.mem_append_left _ (List.mem_of_getLast? isLast)
      have isExact : toSyncSeq last.syncSeq = seqOf last :=
        toSyncSeq_of_representable (exact_ last (mem_rowsOf_of_mem_after inAfter))
      have bytes : st.usedBytes = (rows.map fun r => r.entry.length).sum := by
        rw [collected.accounts.used, taken, List.map_map]
        rfl
      rw [bytes] at fits
      show _ + metadataBytes (seqOf last) st.hasNextPage ≤ maxBytes
      have numbers : toSyncSeq (toItem last).syncSeq = seqOf last := by
        show toSyncSeq (toSyncSeq last.syncSeq) = seqOf last
        rw [isExact, isExact]
      rwa [numbers] at fits

/-! ## Asking until nothing is left -/

/-- Ask again from `highestSyncSeq` until `hasNextPage` is false, for at most so many calls. -/
def pullAll (db : Database) (payload : LogEntryPullPayload) : Nat → Int → Option (List Bytes)
  | 0, _ => none
  | calls + 1, startSeq => do
    let response ← getPaginatedLogEntriesBySyncSeq db { payload with startSeq := some startSeq }
    if response.hasNextPage then
      let highestSyncSeq ← response.highestSyncSeq
      let later ← pullAll db payload calls highestSyncSeq
      return response.entries ++ later
    else
      return response.entries

/-- The filters of the pull, on entries already read. -/
def restrict (payload : LogEntryPullPayload) (entries : List LogSyncEntry) : List LogSyncEntry :=
  entries.filter fun e =>
    payload.hash.all (fun hash => decide (e.cid = hash)) &&
    payload.hashedDbId.all (fun hashedDbId => decide (e.hashedDbId = some hashedDbId)) &&
    payload.endSeq.all (fun endSeq => e.syncSeq.all fun syncSeq => decide (syncSeq ≤ endSeq))

/-- **Asking until nothing is left collects the log**, with one call more than there are rows. -/
theorem pullAll_spec {db : Database} {payload : LogEntryPullPayload}
    (positive : payload.limit ≠ some 0) (exact_ : Exact (db.rowsOf payload.teamId)) (calls : Nat)
    (startSeq : Int) (binds : (pageFilter payload startSeq).Binds payload.teamId)
    (enough : (Cursor.after seqOf startSeq (pulledLog db payload)).length < calls) :
    pullAll db payload calls startSeq =
      some ((Cursor.after seqOf startSeq (pulledLog db payload)).map (·.entry)) := by
  induction calls generalizing startSeq with
  | zero => exact absurd enough (Nat.not_lt_zero _)
  | succ calls ih =>
    obtain ⟨st, rows, rest, called, split_, collected, entries, highest⟩ :=
      response_spec { payload with startSeq := some startSeq } rfl binds positive exact_
    have split_ : Cursor.after seqOf startSeq (pulledLog db payload) = rows ++ rest := split_
    have hasNext : (response startSeq st).hasNextPage = !rest.isEmpty := collected.hasNextPage
    rw [pullAll, called, Option.bind_eq_bind, Option.bind_some, hasNext, entries, highest]
    cases rest with
    | nil =>
      rw [split_, List.append_nil]
      rfl
    | cons next rest =>
      have someRow : rows ≠ [] :=
        collected.progress rfl (List.append_ne_nil_of_right_ne_nil _ (List.cons_ne_nil _ _))
      obtain ⟨front, last, rfl⟩ := (List.eq_nil_or_concat' rows).resolve_left someRow
      obtain ⟨-, afterLast, -⟩ := Cursor.page_eq_window (ascending_log db payload.teamId _) split_
        (List.getLast?_concat ..)
      have afterLast : Cursor.after seqOf (seqOf last) (pulledLog db payload) = next :: rest :=
        afterLast.symm
      have shorter : (Cursor.after seqOf (seqOf last) (pulledLog db payload)).length < calls := by
        rw [split_, List.length_append, List.length_append, List.length_singleton] at enough
        rw [afterLast]
        omega
      have later := ih (seqOf last)
        ⟨binds.1, last.syncSeq.property, binds.2.2⟩ shorter
      rw [List.getLast?_concat, split_]
      simp only [List.isEmpty_cons, Bool.not_false, if_true, Option.map_some, Option.bind_eq_bind,
        Option.bind_some, later, afterLast, Option.pure_def, List.map_append]

/-- **The plain read restricted to the filters is the log of the filters.** -/
theorem restrict_read {db : Database} {payload : LogEntryPullPayload} {startSeq : Int}
    (exact_ : Exact (db.rowsOf payload.teamId)) {entries : List LogSyncEntry}
    (read : getLogEntriesForCommunity db payload.teamId startSeq = some entries) :
    (restrict payload entries).map (·.entry) =
      (Cursor.after seqOf startSeq (pulledLog db payload)).map (·.entry) := by
  unfold getLogEntriesForCommunity at read
  split at read
  · cases read
    rw [restrict, List.filter_map, List.map_map]
    refine congrArg (List.map _) ?_
    refine Cursor.Ascending.ext ?_ ((ascending_log db payload.teamId _).after _) ?_
    · refine Cursor.Ascending.sublist ?_ List.filter_sublist
      refine ascending_orderBySyncSeq db payload.teamId fun r selected => ?_
      exact of_decide_eq_true (Bool.and_eq_true_iff.mp selected).1
    · intro r
      rw [List.mem_filter, mem_orderBySyncSeq, List.mem_filter, Cursor.mem_after, pulledLog, mem_log]
      simp only [Function.comp_apply, entityToPayload, SyncSeqFilter.selects, pageFilter,
        Bool.and_eq_true, decide_eq_true_eq]
      constructor
      · rintro ⟨⟨mem, community, beyond⟩, ⟨hash, hashedDbId⟩, endSeq⟩
        have isExact : toSyncSeq r.syncSeq = seqOf r :=
          toSyncSeq_of_representable (exact_ r (Database.mem_rowsOf.mpr ⟨mem, community⟩))
        rw [isExact] at endSeq
        exact ⟨⟨mem, ⟨⟨hash, community⟩, hashedDbId⟩, endSeq⟩, beyond⟩
      · rintro ⟨⟨mem, ⟨⟨hash, community⟩, hashedDbId⟩, endSeq⟩, beyond⟩
        have isExact : toSyncSeq r.syncSeq = seqOf r :=
          toSyncSeq_of_representable (exact_ r (Database.mem_rowsOf.mpr ⟨mem, community⟩))
        rw [isExact]
        exact ⟨⟨mem, community, beyond⟩, ⟨hash, hashedDbId⟩, endSeq⟩
  · cases read

/-! ## Paging refines the plain read -/

/-- **Paging refines the plain read**, for every table whose community has exact numbers and every
call the database can bind: a response is a front of the matching rows within its limits, and asking
until nothing is left ends and gives the plain read restricted to the filters. -/
theorem paging_refines_read (db : Database) (payload : LogEntryPullPayload) (startSeq : Int)
    (start : payload.startSeq = some startSeq)
    (binds : (pageFilter payload startSeq).Binds payload.teamId)
    (positive : payload.limit ≠ some 0) (exact_ : Exact (db.rowsOf payload.teamId)) :
    RefinesRead db payload startSeq ∧
      ∃ entries, getLogEntriesForCommunity db payload.teamId startSeq = some entries ∧
        pullAll db payload (db.logEntrySync.rows.length + 1) startSeq =
          some ((restrict payload entries).map (·.entry)) := by
  refine ⟨refinesRead start binds positive exact_, ?_⟩
  obtain ⟨entries, read⟩ :
      ∃ entries, getLogEntriesForCommunity db payload.teamId startSeq = some entries :=
    ⟨_, if_pos ⟨binds.1, binds.2.1⟩⟩
  refine ⟨entries, read, ?_⟩
  rw [restrict_read exact_ read]
  exact pullAll_spec positive exact_ _ _ binds
    (Nat.lt_succ_of_le (length_after_le db payload startSeq))

/-- A table with one row of one community, at a given number. -/
def singleRow (syncSeq : JsNumber.Bigint) : Database where
  logEntrySync :=
    { rows :=
        [{ id := "a", communityId := "team", hashedDbId := some "db", entry := [1], receivedAt := 0
           syncSeq := syncSeq, createdAt := 0 }]
      log_entry_sync_pkey := List.nodup_singleton _
      entries_by_syncSeq_idx := List.nodup_singleton _ }
  logEntrySyncCounter := fun _ => none

/-- A pull of the community from the start of its log, with a filter on the hash. -/
def pullFromStart (hash : Option String) : LogEntryPullPayload where
  teamId := "team"
  userId := "user"
  startSeq := some 0
  limit := some 300
  hash := hash

theorem paging_refines_read_single :
    RefinesRead (singleRow ⟨1, by decide⟩) (pullFromStart (some "a")) 0 := by
  have exact_ : Exact ((singleRow ⟨1, by decide⟩).rowsOf "team") := exact_of_small (by decide)
  exact (paging_refines_read _ (pullFromStart (some "a")) 0 rfl (by decide) (by decide) exact_).1

/-- **Not of every table and every call**: the first number that is not exact comes back as its
neighbour, and a filter that the database cannot bind gets no response. -/
theorem paging_of_any_table_fails :
    ¬ RefinesRead (singleRow ⟨2 ^ 53 + 1, by decide⟩) (pullFromStart none) 0 ∧
      ¬ RefinesRead (singleRow ⟨1, by decide⟩) (pullFromStart (some "\x00")) 0 := by
  constructor
  · rintro ⟨answer, rows, rest, called, split_, entries, _, _, _, _, highest⟩
    have computed : getPaginatedLogEntriesBySyncSeq (singleRow ⟨2 ^ 53 + 1, by decide⟩)
        (pullFromStart none) =
          some { hasNextPage := false, entries := [[1]], highestSyncSeq := some (2 ^ 53)
                 resolvedStartSeq := some 0 } := by decide
    cases called.symm.trans computed
    have isRow : matching (singleRow ⟨2 ^ 53 + 1, by decide⟩) "team"
        (pageFilter (pullFromStart none) 0) =
          (singleRow ⟨2 ^ 53 + 1, by decide⟩).logEntrySync.rows := by decide
    have one : rows.length = 1 := by
      rw [← List.length_map (f := fun r : LogEntrySync => r.entry), ← entries]
      rfl
    obtain ⟨row, rfl⟩ := List.length_eq_one_iff.mp one
    have rowIs := List.head_eq_of_cons_eq (isRow.symm.trans split_)
    rw [← rowIs] at highest
    exact absurd highest (by decide)
  · rintro ⟨answer, rows, rest, called, _⟩
    have computed : getPaginatedLogEntriesBySyncSeq (singleRow ⟨1, by decide⟩)
        (pullFromStart (some "\x00")) = none := by decide
    cases called.symm.trans computed

end QuietStorage.Sync
