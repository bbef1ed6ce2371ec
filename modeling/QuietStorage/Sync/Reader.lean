import QuietStorage.Storage.Allocation
import QuietStorage.Sync.PullSpec

/-!
# Sync.Reader — a client that pulls while others write

Any number of `addLogEntry` calls run against the database while a client asks for the log again and
again, each time from the `highestSyncSeq` of its last non-empty response. A response is made of
pages that are read at different moments, so between two rounds of one request any number of rows
may be committed.

What carries the proof is that the log only grows at its end (`log_step`): rows are committed in the
order of their numbers, so what a reader has passed stays as it was, and the windows of
`Lib.Cursor` that its pages are do not change any more.

The guarantee (`pull_exactly_once`) is for communities whose numbers are exact. Beyond `2 ^ 53` a
number comes back as its neighbour and an entry can be pulled twice (`pulled_twice`).
-/

set_option autoImplicit false

namespace QuietStorage.Sync

open Lib Storage

/-! ## The system -/

/-- A client: what it received, the number it asks from next, and the request in flight with its
limit and the variables of its loops. -/
structure Reader where
  received : List Bytes
  cursor : Int
  request : Option (Option Nat × PullState)

/-- The writers' side and one client. -/
structure ReaderState where
  storage : Storage.State
  reader : Reader

inductive ReaderAction where
  /-- A step of the writers. -/
  | write (a : Storage.Action)
  /-- The client asks, with a limit or without. -/
  | request (limit : Option Nat)
  /-- The server reads the next page of the request, and answers when it was the last. -/
  | page

namespace ReaderState

/-- Nothing is under way, and the client wants the log after `start`. -/
def start (db : Database) (start : Int) : ReaderState where
  storage := .start db
  reader := { received := [], cursor := start, request := none }

end ReaderState

/-- The response arrives: the client keeps the entries and moves its cursor. -/
def Reader.receive (reader : Reader) (response : LogEntryPullResponsePayload) : Reader :=
  { reader with
    received := reader.received ++ response.entries
    cursor := response.highestSyncSeq.getD reader.cursor
    request := none }

/-- The payload of a request: the client's filters, with a limit and a start. -/
def requestPayload (filters : LogEntryPullPayload) (limit : Option Nat) (startSeq : Int) :
    LogEntryPullPayload :=
  { filters with limit := limit, startSeq := some startSeq }

/-- One step of the system. The filters are those of the client, and a page is read from the primary. -/
def readerStep (filters : LogEntryPullPayload) (s : ReaderState) :
    ReaderAction → Option ReaderState
  | .write a => (Storage.step s.storage a).map fun storage => { s with storage := storage }
  | .request limit =>
    if limit = some 0 then none
    else
      match s.reader.request with
      | some _ => none
      | none =>
        some { s with
          reader :=
            { s.reader with request := some (limit, { nextStartSeq := s.reader.cursor }) } }
  | .page =>
    match s.reader.request with
    | none => none
    | some (limit, st) =>
      let payload := requestPayload filters limit s.reader.cursor
      match Storage.getPaginatedLogEntriesBySyncSeq s.storage.db payload.teamId
          (pageFilter payload st.nextStartSeq) with
      | none => some { s with reader := { s.reader with request := none } }
      | some page =>
        match turn limit page st with
        | .done st => some { s with reader := s.reader.receive (response s.reader.cursor st) }
        | .more st => some { s with reader := { s.reader with request := some (limit, st) } }

/-! ## The log grows at its end -/

/-- **A step of the writers leaves the log or appends a row beyond all of the community.** -/
theorem log_step {s s' : Storage.State} {a : Storage.Action} (inv : Storage.Inv s)
    (taken : Storage.Step s a s') (filters : LogEntryPullPayload) :
    pulledLog s'.db filters = pulledLog s.db filters ∨
      ∃ row, pulledLog s'.db filters = pulledLog s.db filters ++ [row] ∧
        ∀ r ∈ pulledLog s.db filters, seqOf r < seqOf row := by
  rcases db_step inv taken with same | ⟨k, payload, createdAt, syncSeq, -, commits⟩
  · rw [same]
    exact .inl rfl
  · let row := rowOf payload createdAt syncSeq
    have filtered : s'.db.logEntrySync.rows.filter
        ((pageFilter filters 0).selects filters.teamId) =
          s.db.logEntrySync.rows.filter ((pageFilter filters 0).selects filters.teamId) ++
            [row].filter ((pageFilter filters 0).selects filters.teamId) := by
      rw [commits.appended, List.filter_append]
    cases selected : (pageFilter filters 0).selects filters.teamId row with
    | false =>
      refine .inl ?_
      rw [pulledLog, pulledLog, log, log, filtered,
        List.filter_cons_of_neg (Bool.eq_false_iff.mp selected), List.filter_nil, List.append_nil]
    | true =>
      have community : payload.communityId = filters.teamId := community_of_selects selected
      have above : ∀ r ∈ s.db.logEntrySync.rows.filter
          ((pageFilter filters 0).selects filters.teamId), seqOf r < seqOf row := by
        intro r mem
        obtain ⟨inTable, ofTeam⟩ := List.mem_filter.mp mem
        exact commits.above r (Database.mem_rowsOf.mpr
          ⟨inTable, (community_of_selects ofTeam).trans community.symm⟩)
      refine .inr ⟨row, ?_, fun r mem => above r (mem_orderBySyncSeq.mp mem)⟩
      rw [pulledLog, pulledLog, log, log, filtered, List.filter_cons_of_pos selected,
        List.filter_nil]
      refine Cursor.insertionSort_append_above ?_ above
      rw [List.map_append, List.map_singleton]
      refine List.nodup_append.mpr ⟨?_, List.nodup_singleton _, ?_⟩
      · have ascending := (ascending_log s.db filters.teamId (pageFilter filters 0))
        have perm := List.perm_insertionSort (fun a b : LogEntrySync => seqOf a ≤ seqOf b)
          (s.db.logEntrySync.rows.filter ((pageFilter filters 0).selects filters.teamId))
        refine (perm.map seqOf).nodup_iff.mp ?_
        exact List.pairwise_map.mpr (ascending.imp fun lt => ne_of_lt lt)
      · intro x inOld y isNew equal
        obtain ⟨r, mem, rfl⟩ := List.mem_map.mp inOld
        rw [List.mem_singleton.mp isNew] at equal
        have := above r mem
        omega

/-- A point a reader stands at: where it began, or a row it has passed. -/
def Reached (l : List LogEntrySync) (lo hi : Int) : Prop :=
  hi = lo ∨ ∃ row ∈ l, seqOf row = hi

/-- What a reader has passed does not change when the log grows. -/
theorem window_grown {l : List LogEntrySync} {row : LogEntrySync} {lo hi : Int}
    (above : ∀ r ∈ l, seqOf r < seqOf row) (reached : Reached l lo hi) :
    Cursor.window seqOf lo hi (l ++ [row]) = Cursor.window seqOf lo hi l := by
  rcases reached with rfl | ⟨last, mem, rfl⟩
  · rw [Cursor.window_self, Cursor.window_self]
  · refine Cursor.window_append_above fun r isRow => ?_
    rw [List.mem_singleton.mp isRow]
    exact above last mem

theorem Reached.grown {l : List LogEntrySync} {lo hi : Int} (reached : Reached l lo hi)
    (row : LogEntrySync) : Reached (l ++ [row]) lo hi :=
  reached.imp id fun ⟨last, mem, isHi⟩ => ⟨last, List.mem_append_left _ mem, isHi⟩

/-! ## The invariant -/

/-- What holds of a request in flight: it has collected the window from the client's cursor to the
point its next page starts at. -/
structure RequestInv (l : List LogEntrySync) (cursor : Int) (limit : Option Nat) (st : PullState) :
    Prop where
  positive : limit ≠ some 0
  accounts : Accounts limit st
  goesOn : GoesOn limit st
  entries : st.entries = (Cursor.window seqOf cursor st.nextStartSeq l).map toItem
  low : cursor ≤ st.nextStartSeq
  reached : Reached l cursor st.nextStartSeq
  last : st.nextStartSeq = st.entries.getLast?.elim cursor fun item => toSyncSeq item.syncSeq
  follows : st.entries ≠ [] → Cursor.after seqOf st.nextStartSeq l ≠ []

/-- What holds of the client: it has received the window from its start to its cursor. -/
structure ReaderInv (l : List LogEntrySync) (start : Int) (reader : Reader) : Prop where
  received : reader.received =
    (Cursor.window seqOf start reader.cursor l).map (·.entry)
  low : start ≤ reader.cursor
  reached : Reached l start reader.cursor
  request : ∀ limit st, reader.request = some (limit, st) → RequestInv l reader.cursor limit st

/-- The log grows and everything a client relies on stays. -/
theorem ReaderInv.grown {l : List LogEntrySync} {row : LogEntrySync} {start : Int}
    {reader : Reader} (inv : ReaderInv l start reader)
    (above : ∀ r ∈ l, seqOf r < seqOf row) : ReaderInv (l ++ [row]) start reader := by
  refine ⟨?_, inv.low, inv.reached.grown row, ?_⟩
  · rw [window_grown above inv.reached]
    exact inv.received
  · intro limit st inFlight
    have request := inv.request limit st inFlight
    refine ⟨request.positive, request.accounts, request.goesOn, ?_, request.low,
      request.reached.grown row, request.last, ?_⟩
    · rw [window_grown above request.reached]
      exact request.entries
    · intro some_
      rw [Cursor.after, List.filter_append]
      exact List.append_ne_nil_of_left_ne_nil (request.follows some_) _

/-- A round extends the window that the request has collected. -/
theorem RequestInv.collected {l rows rest : List LogEntrySync} {cursor : Int}
    {limit : Option Nat} {st st' : PullState} (inv : RequestInv l cursor limit st)
    (ascending : Cursor.Ascending seqOf l) (exact_ : Exact (Cursor.after seqOf st.nextStartSeq l))
    (split_ : Cursor.after seqOf st.nextStartSeq l = rows ++ rest)
    (collected : Collected limit rows rest st st') :
    st'.entries = (Cursor.window seqOf cursor st'.nextStartSeq l).map toItem ∧
      cursor ≤ st'.nextStartSeq ∧ Reached l cursor st'.nextStartSeq ∧
      st'.nextStartSeq =
        st'.entries.getLast?.elim cursor fun item => toSyncSeq item.syncSeq := by
  cases last : rows.getLast? with
  | none =>
    have noRows : rows = [] := List.getLast?_eq_none_iff.mp last
    have next : st'.nextStartSeq = st.nextStartSeq := by rw [collected.next, last]; rfl
    have entries : st'.entries = st.entries := by
      rw [collected.entries, noRows]
      exact List.append_nil _
    rw [next, entries]
    exact ⟨inv.entries, inv.low, inv.reached, inv.last⟩
  | some row =>
    have next : st'.nextStartSeq = seqOf row := by rw [collected.next, last]; rfl
    obtain ⟨isWindow, -, beyond⟩ := Cursor.page_eq_window ascending split_ last
    have mem : row ∈ rows := List.mem_of_getLast? last
    have inAfter : row ∈ Cursor.after seqOf st.nextStartSeq l :=
      split_ ▸ List.mem_append_left _ mem
    have isExact : toSyncSeq row.syncSeq = seqOf row :=
      toSyncSeq_of_representable (exact_ row inAfter)
    have low := inv.low
    rw [next]
    refine ⟨?_, by omega, .inr ⟨row, (Cursor.mem_after.mp inAfter).1, rfl⟩, ?_⟩
    · rw [collected.entries, inv.entries, ← List.map_append, isWindow,
        Cursor.window_append ascending inv.low (le_of_lt beyond)]
    · rw [collected.entries, List.getLast?_append, List.getLast?_map, last]
      show seqOf row = toSyncSeq (toSyncSeq row.syncSeq)
      rw [isExact, isExact]

/-- A request begins with nothing collected. -/
theorem requestInv_start {limit : Option Nat} (positive : limit ≠ some 0) (l : List LogEntrySync)
    (cursor : Int) : RequestInv l cursor limit { nextStartSeq := cursor } where
  positive := positive
  accounts := accounts_start _ _
  goesOn := goesOn_start positive _
  entries := by
    rw [Cursor.window_self]
    rfl
  low := le_refl _
  reached := .inl rfl
  last := rfl
  follows := fun none_ => absurd rfl none_

/-- A round that goes on keeps what holds of the request. -/
theorem RequestInv.more {l rows rest : List LogEntrySync} {cursor : Int} {limit : Option Nat}
    {st st' : PullState} (inv : RequestInv l cursor limit st)
    (ascending : Cursor.Ascending seqOf l) (exact_ : Exact (Cursor.after seqOf st.nextStartSeq l))
    (split_ : Cursor.after seqOf st.nextStartSeq l = rows ++ rest)
    (collected : Collected limit rows rest st st') (goesOn : GoesOn limit st') (some_ : rest ≠ []) :
    RequestInv l cursor limit st' := by
  obtain ⟨entries, low, reached, last⟩ := inv.collected ascending exact_ split_ collected
  refine ⟨inv.positive, collected.accounts, goesOn, entries, low, reached, last, fun _ => ?_⟩
  rw [collected.after_next ascending split_]
  exact some_

/-- A response extends the window that the client has received. -/
theorem ReaderInv.receive {l rows rest : List LogEntrySync} {start : Int} {limit : Option Nat}
    {reader : Reader} {st st' : PullState} (inv : ReaderInv l start reader)
    (inFlight : reader.request = some (limit, st)) (ascending : Cursor.Ascending seqOf l)
    (exact_ : Exact (Cursor.after seqOf st.nextStartSeq l))
    (split_ : Cursor.after seqOf st.nextStartSeq l = rows ++ rest)
    (collected : Collected limit rows rest st st') :
    ReaderInv l start (reader.receive (response reader.cursor st')) := by
  obtain ⟨entries, low, reached, last⟩ :=
    (inv.request limit st inFlight).collected ascending exact_ split_ collected
  have cursor : (reader.receive (response reader.cursor st')).cursor = st'.nextStartSeq := by
    show (st'.entries.getLast?.map _).getD reader.cursor = st'.nextStartSeq
    rw [last]
    cases st'.entries.getLast? <;> rfl
  refine ⟨?_, ?_, ?_, ?_⟩
  · show reader.received ++ st'.entries.map (·.entry) = _
    rw [cursor, inv.received, entries, List.map_map,
      ← Cursor.window_append ascending inv.low low, List.map_append]
    rfl
  · rw [cursor]
    exact le_trans inv.low low
  · rw [cursor]
    rcases reached with same | passed
    · rw [same]
      exact inv.reached
    · exact .inr passed
  · intro limit' st'' none_
    cases none_

/-- **The step lemma**: with exact numbers, a step of the writers or of the client keeps what holds
of the client. -/
theorem readerInv_step {filters : LogEntryPullPayload} {s s' : ReaderState} {a : ReaderAction}
    {start : Int} (storage : Storage.Inv s.storage) (taken : readerStep filters s a = some s')
    (exact_ : Exact (s.storage.db.rowsOf filters.teamId))
    (inv : ReaderInv (pulledLog s.storage.db filters) start s.reader) :
    ReaderInv (pulledLog s'.storage.db filters) start s'.reader := by
  cases a with
  | write a =>
    obtain ⟨storage', moved, rfl⟩ := Option.map_eq_some_iff.mp taken
    show ReaderInv (pulledLog storage'.db filters) start s.reader
    rcases log_step storage (step_eq_some.mp moved) filters with same | ⟨row, grown, above⟩
    · rw [same]
      exact inv
    · rw [grown]
      exact inv.grown above
  | request limit =>
    simp only [readerStep] at taken
    split at taken
    · cases taken
    · next positive =>
      split at taken
      · cases taken
      · cases taken
        refine ⟨inv.received, inv.low, inv.reached, ?_⟩
        intro limit' st inFlight
        cases inFlight
        exact requestInv_start positive _ _
  | page =>
    simp only [readerStep] at taken
    split at taken
    · cases taken
    · next limit st inFlight =>
      have request := inv.request limit st inFlight
      have exactAfter : Exact
          (Cursor.after seqOf st.nextStartSeq (pulledLog s.storage.db filters)) :=
        fun r mem => exact_ r (mem_rowsOf_of_mem_after mem)
      have ascending : Cursor.Ascending seqOf (pulledLog s.storage.db filters) :=
        ascending_log _ _ _
      split at taken
      · cases taken
        refine ⟨inv.received, inv.low, inv.reached, ?_⟩
        intro limit' st' none_
        cases none_
      · next page read =>
        obtain ⟨rows, rest, split_, sound⟩ :=
          turn_spec (requestPayload filters limit s.reader.cursor) exactAfter
            request.positive request.accounts request.goesOn request.follows read
        have split_ : Cursor.after seqOf st.nextStartSeq (pulledLog s.storage.db filters) =
          rows ++ rest := split_
        split at taken
        · next st' round =>
          cases taken
          rw [show (requestPayload filters limit s.reader.cursor).limit = limit from rfl, round]
            at sound
          exact inv.receive inFlight ascending exactAfter split_ sound
        · next st' round =>
          cases taken
          rw [show (requestPayload filters limit s.reader.cursor).limit = limit from rfl, round]
            at sound
          obtain ⟨collected, goesOn, -, someRest⟩ := sound
          refine ⟨inv.received, inv.low, inv.reached, ?_⟩
          intro limit' st'' inFlight'
          cases inFlight'
          exact request.more ascending exactAfter split_ collected goesOn someRest

/-! ## Every row exactly once -/

/-- A step of the system keeps the writers' invariant and loses no row. -/
theorem storage_readerStep {filters : LogEntryPullPayload} {s s' : ReaderState}
    {a : ReaderAction} (inv : Storage.Inv s.storage) (taken : readerStep filters s a = some s') :
    Storage.Inv s'.storage ∧
      s.storage.db.logEntrySync.rows <+: s'.storage.db.logEntrySync.rows := by
  have unchanged : s'.storage = s.storage → Storage.Inv s'.storage ∧
      s.storage.db.logEntrySync.rows <+: s'.storage.db.logEntrySync.rows := by
    intro same
    rw [same]
    exact ⟨inv, List.prefix_refl _⟩
  cases a with
  | write a =>
    obtain ⟨storage', moved, rfl⟩ := Option.map_eq_some_iff.mp taken
    have moved := step_eq_some.mp moved
    exact ⟨inv_step inv moved, rows_step inv moved⟩
  | request limit =>
    simp only [readerStep] at taken
    split at taken
    · cases taken
    · split at taken <;> cases taken
      exact unchanged rfl
  | page =>
    simp only [readerStep] at taken
    split at taken
    · cases taken
    · split at taken
      · cases taken
        exact unchanged rfl
      · split at taken <;> cases taken <;> exact unchanged rfl

/-- Numbers that are exact after a step were exact before it. -/
theorem exact_of_prefix {db db' : Database} {c : TeamId}
    (grown : db.logEntrySync.rows <+: db'.logEntrySync.rows) (exact_ : Exact (db'.rowsOf c)) :
    Exact (db.rowsOf c) := by
  intro r mem
  obtain ⟨inTable, community⟩ := Database.mem_rowsOf.mp mem
  exact exact_ r (Database.mem_rowsOf.mpr ⟨grown.subset inTable, community⟩)

/-- What the client has received, on a database: every matching row after its start and up to its
cursor, in the order of their numbers and each once. -/
def ExactlyOnce (db : Database) (filters : LogEntryPullPayload) (start : Int) (reader : Reader) :
    Prop :=
  reader.received =
    ((orderBySyncSeq (db.logEntrySync.rows.filter
        ((pageFilter filters 0).selects filters.teamId))).filter fun r =>
      decide (start < seqOf r ∧ seqOf r ≤ reader.cursor)).map (·.entry)

/-- The run lemma of the reader. -/
theorem readerInv_run {filters : LogEntryPullPayload} {db : Database} {start : Int}
    {as : List ReaderAction} {s : ReaderState}
    (ran : run (readerStep filters) (.start db start) as = some s) :
    Storage.Inv s.storage ∧ (Exact (s.storage.db.rowsOf filters.teamId) →
      ReaderInv (pulledLog s.storage.db filters) start s.reader) := by
  refine run_keeps (P := fun s : ReaderState => Storage.Inv s.storage ∧
    (Exact (s.storage.db.rowsOf filters.teamId) →
      ReaderInv (pulledLog s.storage.db filters) start s.reader)) ?_ ?_ ran
  · intro s a s' ⟨storage, reader⟩ taken
    obtain ⟨storage', grown⟩ := storage_readerStep storage taken
    refine ⟨storage', fun exact_ => ?_⟩
    have exactBefore := exact_of_prefix grown exact_
    exact readerInv_step storage taken exactBefore (reader exactBefore)
  · refine ⟨inv_start db, fun _ => ⟨?_, le_refl start, .inl rfl, ?_⟩⟩
    · show [] = _
      rw [show (ReaderState.start db start).reader.cursor = start from rfl, Cursor.window_self]
      rfl
    · intro limit st none_
      cases none_

/-- **Exactly-once pull under concurrent writers.** After any interleaving of any number of writers
with the requests of a client, on a community whose numbers are exact: the client has received every
matching row between its start and its cursor, in order and once; and a row that commits later lies
beyond every row of the community. -/
theorem pull_exactly_once (filters : LogEntryPullPayload) (db : Database) (start : Int)
    (as : List ReaderAction) (s : ReaderState)
    (ran : run (readerStep filters) (.start db start) as = some s)
    (exact_ : Exact (s.storage.db.rowsOf filters.teamId)) :
    ExactlyOnce s.storage.db filters start s.reader ∧
      (pulledLog s.storage.db filters).Pairwise (fun a b => seqOf a < seqOf b) ∧
      ∀ a s', readerStep filters s a = some s' →
        ∀ row ∈ s'.storage.db.rowsOf filters.teamId, row ∉ s.storage.db.rowsOf filters.teamId →
          ∀ r ∈ s.storage.db.rowsOf filters.teamId, seqOf r < seqOf row := by
  obtain ⟨storage, reader⟩ := readerInv_run ran
  refine ⟨(reader exact_).received, ascending_log _ _ _, ?_⟩
  intro a s' taken row mem fresh r old
  cases a with
  | write a =>
    obtain ⟨storage', moved, rfl⟩ := Option.map_eq_some_iff.mp taken
    rcases db_step storage (step_eq_some.mp moved) with same | ⟨k, p, t, seq, -, commits⟩
    · rw [same] at mem
      exact absurd mem fresh
    · rcases (mem_rowsOf_append commits.appended).mp mem with before | ⟨rfl, community⟩
      · exact absurd before fresh
      · exact commits.above r (by rw [← community] at old; exact old)
  | request limit =>
    simp only [readerStep] at taken
    split at taken
    · cases taken
    · split at taken <;> cases taken
      exact absurd mem fresh
  | page =>
    simp only [readerStep] at taken
    split at taken
    · cases taken
    · split at taken
      · cases taken
        exact absurd mem fresh
      · split at taken <;> cases taken <;> exact absurd mem fresh

/-- The client of the runs below: every row of one team. -/
def wholeTeam : LogEntryPullPayload where
  teamId := "team"
  userId := "user"

/-- A row is committed between the two requests of the client. -/
def overlappingRun : List ReaderAction :=
  [.write (.submit 0 (payloadNamed "a") 0), .write (.allocate 0), .write (.insert 0),
    .request none, .write (.submit 1 (payloadNamed "b") 0), .page, .write (.allocate 1),
    .write (.insert 1), .request (some 1), .page]

theorem pull_exactly_once_overlapping :
    ∃ s, run (readerStep wholeTeam) (.start .empty 0) overlappingRun = some s ∧
      s.reader.received.length = 2 ∧ ExactlyOnce s.storage.db wholeTeam 0 s.reader :=
  ⟨_, rfl, by decide, (pull_exactly_once wholeTeam .empty 0 overlappingRun _ rfl (by decide)).1⟩

/-- The counter of every community stands at the first number that is not exact. -/
def counterBeyondExact : Database where
  logEntrySync := .empty
  logEntrySyncCounter := fun _ => some ⟨2 ^ 53 + 1, by decide⟩

/-- One row is committed, and the client asks twice. -/
def askTwice : List ReaderAction :=
  [.write (.submit 0 (payloadNamed "a") 0), .write (.allocate 0), .write (.insert 0),
    .request none, .page, .request none, .page]

/-- **An entry can be pulled twice**: its number comes back rounded down, so the next request reads
it again. -/
theorem pulled_twice :
    ∃ s, run (readerStep wholeTeam) (.start counterBeyondExact 0) askTwice = some s ∧
      s.reader.received = [[], []] ∧ ¬ ExactlyOnce s.storage.db wholeTeam 0 s.reader := by
  refine ⟨_, rfl, by decide, ?_⟩
  unfold ExactlyOnce
  decide

end QuietStorage.Sync
