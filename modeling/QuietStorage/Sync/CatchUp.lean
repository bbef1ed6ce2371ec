import QuietStorage.Sync.Reader

/-!
# Sync.CatchUp — a client that keeps asking catches up

What `Sync.Reader` leaves open: that a client gets anywhere. A page of a request may be empty or may
not fit, so a step of the client need not bring a row; but no two steps without a row follow a page,
and what was committed when the client began to count is a fixed part of a log that only grows at its
end (`log_grows`). So three steps for each row that is missing are enough, however the writers
interleave (`catches_up`).

**Answers.** `answer` is what the server sends at the last page of a request. It says whether rows
remain as the log stands at that moment, also when its earlier pages were read before other rows were
committed (`answers_truthfully`).

A parameter that the database cannot bind makes every query throw, and such a client never catches up:
the filters are assumed to be bindable. So are the numbers to be exact, and the pages to be read from the
primary, as they are where `POSTGRES_READ_REPLICA_HOSTS` is not set: a replica that lags answers as the
log stood before, and what is said here is true of the rows that have reached it only.
-/

set_option autoImplicit false

namespace QuietStorage.Sync

open Lib Storage

/-! ## What a client has collected -/

/-- The entries that were received, and those that the request in flight has collected. -/
def Reader.collected (reader : Reader) : List Bytes :=
  reader.received ++ reader.request.elim [] fun request => request.2.entries.map (·.entry)

/-- The number that the client has collected up to. -/
def Reader.point (reader : Reader) : Int :=
  reader.request.elim reader.cursor fun request => request.2.nextStartSeq

/-- How many steps may pass without a row: an answer after a page that brought some, and the next
request. -/
def Reader.delay (reader : Reader) : Nat :=
  reader.request.elim 1 fun request => if request.2.entries.isEmpty then 0 else 2

/-- How much is ahead of the client in a log. -/
def Reader.ahead (reader : Reader) (l : List LogEntrySync) : Nat :=
  3 * (Cursor.after seqOf reader.point l).length + reader.delay

/-- A step of the client. -/
def ReaderAction.isClient : ReaderAction → Bool
  | .write _ => false
  | .request _ | .page => true

theorem Reader.delay_le (reader : Reader) : reader.delay ≤ 2 := by
  unfold delay
  cases reader.request with
  | none => exact Nat.le_succ 1
  | some request =>
    rw [Option.elim_some]
    split <;> omega

section
variable {l : List LogEntrySync} {start : Int} {reader : Reader}

/-- The client has collected the window from its start to its point. -/
theorem ReaderInv.collected (inv : ReaderInv l start reader) (ascending : Cursor.Ascending seqOf l) :
    reader.collected = (Cursor.window seqOf start reader.point l).map (·.entry) := by
  unfold Reader.collected Reader.point
  cases inFlight : reader.request with
  | none =>
    rw [Option.elim_none, Option.elim_none, List.append_nil]
    exact inv.received
  | some request =>
    have holds := inv.request request.1 request.2 inFlight
    rw [Option.elim_some, Option.elim_some, inv.received, holds.entries,
      ← Cursor.window_append ascending inv.low holds.low, List.map_append, List.map_map]
    rfl

/-- The point is a number that the database can bind. -/
theorem ReaderInv.binds_point (inv : ReaderInv l start reader) (binds : BindsBigint start) :
    BindsBigint reader.point := by
  have reached : ∀ {lo hi : Int}, BindsBigint lo → Reached l lo hi → BindsBigint hi := by
    rintro lo hi binds (rfl | ⟨row, -, rfl⟩)
    · exact binds
    · exact row.syncSeq.property
  have cursor := reached binds inv.reached
  unfold Reader.point
  cases inFlight : reader.request with
  | none => exact cursor
  | some request => exact reached cursor (inv.request request.1 request.2 inFlight).reached

end

/-! ## A page -/

/-- What the server answers if the client's page is read now. -/
def answer (filters : LogEntryPullPayload) (s : ReaderState) : Option LogEntryPullResponsePayload :=
  match s.reader.request with
  | none => none
  | some (limit, st) =>
    match Storage.getPaginatedLogEntriesBySyncSeq s.storage.db filters.teamId
        (pageFilter (requestPayload filters limit s.reader.cursor) st.nextStartSeq) with
    | none => none
    | some page =>
      match turn limit page st with
      | .done st => some (response s.reader.cursor st)
      | .more _ => none

/-- What a page step does: it takes a front of what lies beyond the point, and answers or goes on. -/
structure PageStep (filters : LogEntryPullPayload) (s s' : ReaderState) (limit : Option Nat)
    (st st' : PullState) (rows rest : List LogEntrySync) : Prop where
  inFlight : s.reader.request = some (limit, st)
  split : Cursor.after seqOf st.nextStartSeq (pulledLog s.storage.db filters) = rows ++ rest
  collected : Collected limit rows rest st st'
  storage : s'.storage = s.storage
  outcome : (answer filters s = some (response s.reader.cursor st') ∧
      s'.reader = s.reader.receive (response s.reader.cursor st')) ∨
    (answer filters s = none ∧ s'.reader = { s.reader with request := some (limit, st') } ∧
      rows ≠ [] ∧ rest ≠ [])

/-- The filters can be bound, and so can the start of the client. -/
def Bindable (filters : LogEntryPullPayload) (start : Int) : Prop :=
  (pageFilter filters start).Binds filters.teamId

instance (filters : LogEntryPullPayload) (start : Int) : Decidable (Bindable filters start) :=
  inferInstanceAs (Decidable ((pageFilter filters start).Binds filters.teamId))

section
variable {filters : LogEntryPullPayload} {start : Int} {s s' : ReaderState}

theorem ascending_pulledLog (db : Database) (filters : LogEntryPullPayload) :
    Cursor.Ascending seqOf (pulledLog db filters) :=
  ascending_log _ _ _

/-- A query of the client does not throw. -/
theorem query_answers (binds : Bindable filters start) (limit : Option Nat) (cursor : Int)
    {point : Int} (isBigint : BindsBigint point) (db : Database) :
    ∃ page, Storage.getPaginatedLogEntriesBySyncSeq db filters.teamId
      (pageFilter (requestPayload filters limit cursor) point) = some page :=
  ⟨_, if_pos ⟨binds.1, isBigint, binds.2.2⟩⟩

/-- **The page step**, when its query is answered. -/
theorem page_step {limit : Option Nat} {st : PullState} {page : Page}
    (inv : ReaderInv (pulledLog s.storage.db filters) start s.reader)
    (exact_ : Exact (s.storage.db.rowsOf filters.teamId))
    (inFlight : s.reader.request = some (limit, st))
    (read : Storage.getPaginatedLogEntriesBySyncSeq s.storage.db filters.teamId
      (pageFilter (requestPayload filters limit s.reader.cursor) st.nextStartSeq) = some page)
    (taken : readerStep filters s .page = some s') :
    ∃ st' rows rest, PageStep filters s s' limit st st' rows rest := by
  have holds := inv.request limit st inFlight
  have exactAfter : Exact
      (Cursor.after seqOf st.nextStartSeq (pulledLog s.storage.db filters)) :=
    fun r mem => exact_ r (mem_rowsOf_of_mem_after mem)
  obtain ⟨rows, rest, split_, sound⟩ := turn_spec (requestPayload filters limit s.reader.cursor)
    exactAfter holds.positive holds.accounts holds.goesOn holds.follows read
  have isLimit : (requestPayload filters limit s.reader.cursor).limit = limit := rfl
  have isTeam : (requestPayload filters limit s.reader.cursor).teamId = filters.teamId := rfl
  simp only [readerStep, inFlight, isTeam, read] at taken
  rw [isLimit] at sound
  cases round : turn limit page st with
  | done st' =>
    rw [round] at sound taken
    cases taken
    refine ⟨st', rows, rest, inFlight, split_, sound, rfl, .inl ⟨?_, rfl⟩⟩
    simp only [answer, inFlight, read, round]
  | more st' =>
    rw [round] at sound taken
    obtain ⟨collected, -, someRow, someRest⟩ := sound
    cases taken
    refine ⟨st', rows, rest, inFlight, split_, collected, rfl, .inr ⟨?_, rfl, someRow, someRest⟩⟩
    simp only [answer, inFlight, read, round]

/-- A page step of a client whose filters can be bound. -/
theorem page_step_of_binds (binds : Bindable filters start)
    (inv : ReaderInv (pulledLog s.storage.db filters) start s.reader)
    (exact_ : Exact (s.storage.db.rowsOf filters.teamId))
    (taken : readerStep filters s .page = some s') :
    ∃ limit st st' rows rest, PageStep filters s s' limit st st' rows rest := by
  cases inFlight : s.reader.request with
  | none =>
    simp only [readerStep, inFlight] at taken
    cases taken
  | some request =>
    obtain ⟨limit, st⟩ := request
    have isPoint : s.reader.point = st.nextStartSeq := by
      rw [Reader.point, inFlight]
      rfl
    obtain ⟨page, read⟩ := query_answers binds limit s.reader.cursor
      (isPoint ▸ inv.binds_point binds.2.1) s.storage.db
    obtain ⟨st', rows, rest, step⟩ := page_step inv exact_ inFlight read taken
    exact ⟨limit, st, st', rows, rest, step⟩

namespace PageStep

variable {limit : Option Nat} {st st' : PullState} {rows rest : List LogEntrySync}

theorem point_before (step : PageStep filters s s' limit st st' rows rest) :
    s.reader.point = st.nextStartSeq := by
  rw [Reader.point, step.inFlight]
  rfl

/-- An answer moves the cursor to where its last page ended. -/
theorem cursor_receive (step : PageStep filters s s' limit st st' rows rest)
    (inv : ReaderInv (pulledLog s.storage.db filters) start s.reader)
    (exact_ : Exact (s.storage.db.rowsOf filters.teamId)) :
    (s.reader.receive (response s.reader.cursor st')).cursor = st'.nextStartSeq := by
  have exactAfter : Exact
      (Cursor.after seqOf st.nextStartSeq (pulledLog s.storage.db filters)) :=
    fun r mem => exact_ r (mem_rowsOf_of_mem_after mem)
  obtain ⟨-, -, -, last⟩ := (inv.request limit st step.inFlight).collected
    (ascending_pulledLog _ _) exactAfter step.split step.collected
  show (st'.entries.getLast?.map _).getD s.reader.cursor = st'.nextStartSeq
  rw [last]
  cases st'.entries.getLast? <;> rfl

theorem point_after (step : PageStep filters s s' limit st st' rows rest)
    (inv : ReaderInv (pulledLog s.storage.db filters) start s.reader)
    (exact_ : Exact (s.storage.db.rowsOf filters.teamId)) :
    s'.reader.point = st'.nextStartSeq := by
  rcases step.outcome with ⟨-, answered⟩ | ⟨-, goesOn, -, -⟩
  · rw [answered]
    exact step.cursor_receive inv exact_
  · rw [goesOn]
    rfl

/-- What is left of the log is what lies beyond the new point. -/
theorem after_point (step : PageStep filters s s' limit st st' rows rest)
    (inv : ReaderInv (pulledLog s.storage.db filters) start s.reader)
    (exact_ : Exact (s.storage.db.rowsOf filters.teamId)) :
    Cursor.after seqOf s'.reader.point (pulledLog s.storage.db filters) = rest := by
  rw [step.point_after inv exact_]
  exact step.collected.after_next (ascending_pulledLog _ _) step.split

end PageStep

end

/-! ## Steps ahead -/

section
variable {filters : LogEntryPullPayload} {start : Int} {s s' : ReaderState}

/-- A part of the log that more rows follow, all with greater numbers. -/
structure FrontOf (l₀ l : List LogEntrySync) : Prop where
  isPrefix : l₀ <+: l
  ascending : Cursor.Ascending seqOf l

/-- What lies beyond a number in a front of a log is a front of what lies beyond it in the log. -/
theorem FrontOf.after {l₀ l : List LogEntrySync} (front : FrontOf l₀ l) (lo : Int) :
    Cursor.after seqOf lo l₀ <+: Cursor.after seqOf lo l := by
  obtain ⟨later, rfl⟩ := front.isPrefix
  exact ⟨Cursor.after seqOf lo later, (List.filter_append ..).symm⟩

/-- Beyond a greater number lie no more rows. -/
theorem length_after_mono {l : List LogEntrySync} {lo hi : Int} (le : lo ≤ hi) :
    (Cursor.after seqOf hi l).length ≤ (Cursor.after seqOf lo l).length := by
  refine (List.monotone_filter_right l fun r beyond => ?_).length_le
  rw [decide_eq_true_eq] at beyond ⊢
  exact lt_of_le_of_lt le beyond

/-- Rows that were taken from beyond a number are not beyond the last of them. -/
theorem length_after_taken {l₀ l rows rest : List LogEntrySync} {lo hi : Int}
    (front : FrontOf l₀ l) (split_ : Cursor.after seqOf lo l = rows ++ rest)
    (left : Cursor.after seqOf hi l = rest) (le : lo ≤ hi) (some_ : rows ≠ [])
    (ahead : Cursor.after seqOf lo l₀ ≠ []) :
    (Cursor.after seqOf hi l₀).length < (Cursor.after seqOf lo l₀).length := by
  have sublist : (Cursor.after seqOf hi l₀).Sublist (Cursor.after seqOf lo l₀) := by
    refine List.monotone_filter_right l₀ fun r beyond => ?_
    rw [decide_eq_true_eq] at beyond ⊢
    exact lt_of_le_of_lt le beyond
  refine lt_of_le_of_ne sublist.length_le fun same => ?_
  have unchanged := sublist.eq_of_length same
  -- the first row beyond `lo` was taken, so it is not beyond `hi`
  obtain ⟨row, later, isCons⟩ := List.exists_cons_of_ne_nil ahead
  obtain ⟨taken, more, rfl⟩ := List.exists_cons_of_ne_nil some_
  obtain ⟨others, isAfter⟩ := front.after lo
  have first : row = taken := by
    rw [split_, isCons] at isAfter
    exact (List.cons.inj isAfter).1
  have notLeft : taken ∉ rest := by
    have nodup := (front.ascending.after lo).nodup
    rw [split_] at nodup
    exact (List.nodup_append.mp nodup).2.2 taken List.mem_cons_self |> fun apart mem =>
      apart taken mem rfl
  have inLeft : row ∈ Cursor.after seqOf hi l := by
    refine (front.after hi).subset ?_
    rw [unchanged, isCons]
    exact List.mem_cons_self
  rw [left, first] at inLeft
  exact notLeft inLeft

theorem PageStep.le_point {limit : Option Nat} {st st' : PullState} {rows rest : List LogEntrySync}
    (step : PageStep filters s s' limit st st' rows rest) : st.nextStartSeq ≤ st'.nextStartSeq := by
  rw [step.collected.next]
  cases last : rows.getLast? with
  | none => exact le_refl _
  | some row =>
    have inAfter : row ∈ Cursor.after seqOf st.nextStartSeq (pulledLog s.storage.db filters) :=
      step.split ▸ List.mem_append_left _ (List.mem_of_getLast? last)
    exact le_of_lt (Cursor.mem_after.mp inAfter).2

/-- **The step lemma**: as long as a row of the front is missing, a step of the client brings it
closer. -/
theorem ahead_step {l₀ : List LogEntrySync} {a : ReaderAction} (binds : Bindable filters start)
    (inv : ReaderInv (pulledLog s.storage.db filters) start s.reader)
    (exact_ : Exact (s.storage.db.rowsOf filters.teamId))
    (front : FrontOf l₀ (pulledLog s.storage.db filters)) (isClient : a.isClient = true)
    (missing : Cursor.after seqOf s.reader.point l₀ ≠ [])
    (taken : readerStep filters s a = some s') :
    s'.reader.ahead l₀ < s.reader.ahead l₀ ∧ s.reader.point ≤ s'.reader.point := by
  cases a with
  | write a => cases isClient
  | request limit =>
    simp only [readerStep] at taken
    split at taken
    · cases taken
    · split at taken
      · cases taken
      · next idle =>
        cases taken
        simp [Reader.ahead, Reader.point, Reader.delay, idle]
  | page =>
    obtain ⟨limit, st, st', rows, rest, step⟩ := page_step_of_binds binds inv exact_ taken
    have before := step.point_before
    have after_ := step.point_after inv exact_
    have le := step.le_point
    have delay := s'.reader.delay_le
    rw [before] at missing
    refine ⟨?_, by rw [before, after_]; exact le⟩
    unfold Reader.ahead
    rw [before, after_]
    by_cases noRow : rows = []
    · -- a page that brings nothing is not the first of its request, and it ends the request
      have someEntry : st.entries ≠ [] := by
        intro first
        have beyond : rows ++ rest ≠ [] := by
          rw [← step.split]
          intro none_
          have isPrefix := front.after st.nextStartSeq
          rw [none_] at isPrefix
          exact missing (List.prefix_nil.mp isPrefix)
        exact step.collected.progress first beyond noRow
      have waited : s.reader.delay = 2 := by
        rw [Reader.delay, step.inFlight, Option.elim_some, if_neg]
        exact fun none_ => someEntry (List.isEmpty_iff.mp none_)
      have idle : s'.reader.delay = 1 := by
        rcases step.outcome with ⟨-, answered⟩ | ⟨-, -, someRow, -⟩
        · rw [answered]
          rfl
        · exact absurd noRow someRow
      have stays := length_after_mono (l := l₀) le
      omega
    · have left := step.collected.after_next (ascending_pulledLog _ _) step.split
      have shorter := length_after_taken front step.split left le noRow missing
      omega

end

/-! ## Runs -/

section
variable {filters : LogEntryPullPayload} {start : Int} {s s' : ReaderState}

/-- A step leaves the log in front of what it is after it. -/
theorem log_grows {a : ReaderAction} (storage : Storage.Inv s.storage)
    (taken : readerStep filters s a = some s') :
    pulledLog s.storage.db filters <+: pulledLog s'.storage.db filters := by
  have unchanged : s'.storage = s.storage →
      pulledLog s.storage.db filters <+: pulledLog s'.storage.db filters := by
    intro same
    rw [same]
  cases a with
  | write a =>
    obtain ⟨storage', moved, rfl⟩ := Option.map_eq_some_iff.mp taken
    rcases log_step storage (step_eq_some.mp moved) filters with same | ⟨row, grown, -⟩
    · exact same ▸ List.prefix_refl _
    · exact grown ▸ List.prefix_append _ _
  | request limit =>
    simp only [readerStep] at taken
    split at taken
    · cases taken
    · split at taken <;> cases taken
      exact unchanged rfl
  | page =>
    simp only [readerStep] at taken
    split at taken
    · cases taken
    · split at taken
      · cases taken
        exact unchanged rfl
      · split at taken <;> cases taken <;> exact unchanged rfl

/-- A run loses no row. -/
theorem rows_run {bs : List ReaderAction} (storage : Storage.Inv s.storage)
    (ran : run (readerStep filters) s bs = some s') :
    s.storage.db.logEntrySync.rows <+: s'.storage.db.logEntrySync.rows := by
  induction bs generalizing s with
  | nil =>
    cases ran
    exact List.prefix_refl _
  | cons b bs ih =>
    obtain ⟨m, first, rest⟩ := run_cons_eq_some.mp ran
    obtain ⟨storage', grown⟩ := storage_readerStep storage first
    exact grown.trans (ih storage' rest)

/-- A step of the writers leaves the client as it is. -/
theorem reader_write {a : Storage.Action} (taken : readerStep filters s (.write a) = some s') :
    s'.reader = s.reader := by
  obtain ⟨storage', -, rfl⟩ := Option.map_eq_some_iff.mp taken
  rfl

/-- What holds of the system while a client catches up with a front of the log. -/
structure Catching (filters : LogEntryPullPayload) (start : Int) (l₀ : List LogEntrySync)
    (s : ReaderState) : Prop where
  storage : Storage.Inv s.storage
  reader : ReaderInv (pulledLog s.storage.db filters) start s.reader
  front : FrontOf l₀ (pulledLog s.storage.db filters)

theorem Catching.step {l₀ : List LogEntrySync} {a : ReaderAction}
    (catching : Catching filters start l₀ s) (exact_ : Exact (s.storage.db.rowsOf filters.teamId))
    (taken : readerStep filters s a = some s') : Catching filters start l₀ s' where
  storage := (storage_readerStep catching.storage taken).1
  reader := readerInv_step catching.storage taken exact_ catching.reader
  front := ⟨catching.front.isPrefix.trans (log_grows catching.storage taken),
    ascending_pulledLog _ _⟩

/-- A step leaves the client's point where it is or moves it on. -/
theorem point_step {a : ReaderAction} {l₀ : List LogEntrySync} (binds : Bindable filters start)
    (catching : Catching filters start l₀ s) (exact_ : Exact (s.storage.db.rowsOf filters.teamId))
    (taken : readerStep filters s a = some s') : s.reader.point ≤ s'.reader.point := by
  cases a with
  | write a => rw [reader_write taken]
  | request limit =>
    simp only [readerStep] at taken
    split at taken
    · cases taken
    · split at taken
      · cases taken
      · next idle =>
        cases taken
        simp [Reader.point, idle]
  | page =>
    obtain ⟨limit, st, st', rows, rest, step⟩ := page_step_of_binds binds catching.reader exact_ taken
    rw [step.point_before, step.point_after catching.reader exact_]
    exact step.le_point

/-- Along a run the client's point does not go back. -/
theorem point_run {l₀ : List LogEntrySync} {bs : List ReaderAction} (binds : Bindable filters start)
    (catching : Catching filters start l₀ s) (ran : run (readerStep filters) s bs = some s')
    (exact_ : Exact (s'.storage.db.rowsOf filters.teamId)) : s.reader.point ≤ s'.reader.point := by
  induction bs generalizing s with
  | nil =>
    cases ran
    exact le_refl _
  | cons b bs ih =>
    obtain ⟨m, first, rest⟩ := run_cons_eq_some.mp ran
    have exactHere : Exact (s.storage.db.rowsOf filters.teamId) :=
      exact_of_prefix (rows_run catching.storage ran) exact_
    exact (point_step binds catching exactHere first).trans
      (ih (catching.step exactHere first) rest)

/-- **The run lemma**: each step of the client is paid for by what is ahead of it, until no row of the
front is missing. -/
theorem ahead_run {l₀ : List LogEntrySync} {bs : List ReaderAction} (binds : Bindable filters start)
    (catching : Catching filters start l₀ s) (ran : run (readerStep filters) s bs = some s')
    (exact_ : Exact (s'.storage.db.rowsOf filters.teamId)) :
    Catching filters start l₀ s' ∧ (Cursor.after seqOf s'.reader.point l₀ = [] ∨
      s'.reader.ahead l₀ + bs.countP ReaderAction.isClient ≤ s.reader.ahead l₀) := by
  induction bs generalizing s with
  | nil =>
    cases ran
    exact ⟨catching, .inr (le_refl _)⟩
  | cons b bs ih =>
    obtain ⟨m, first, rest⟩ := run_cons_eq_some.mp ran
    have exactHere : Exact (s.storage.db.rowsOf filters.teamId) :=
      exact_of_prefix (rows_run catching.storage ran) exact_
    have catchingM := catching.step exactHere first
    obtain ⟨catching', reached⟩ := ih catchingM rest
    refine ⟨catching', ?_⟩
    rcases reached with done | paid
    · exact .inl done
    · cases isClient : b.isClient with
      | false =>
        have same : m.reader = s.reader := by
          cases b with
          | write a => exact reader_write first
          | request limit => cases isClient
          | page => cases isClient
        rw [List.countP_cons_of_neg (by rw [isClient]; exact Bool.false_ne_true), ← same]
        exact .inr paid
      | true =>
        by_cases missing : Cursor.after seqOf s.reader.point l₀ = []
        · refine .inl (List.length_eq_zero_iff.mp (Nat.le_zero.mp ?_))
          rw [← List.length_eq_zero_iff.mpr missing]
          exact length_after_mono (point_run binds catching ran exact_)
        · have closer := (ahead_step binds catching.reader exactHere catching.front isClient missing
            first).1
          rw [List.countP_cons_of_pos isClient]
          exact .inr (by omega)

/-! ## Catching up -/

/-- The matching rows that the client has not collected. -/
def ReaderState.missing (s : ReaderState) (filters : LogEntryPullPayload) : Nat :=
  (Cursor.after seqOf s.reader.point (pulledLog s.storage.db filters)).length

theorem catching_start {db : Database} {as : List ReaderAction}
    (ran : run (readerStep filters) (.start db start) as = some s)
    (exact_ : Exact (s.storage.db.rowsOf filters.teamId)) :
    Catching filters start (pulledLog s.storage.db filters) s := by
  obtain ⟨storage, reader⟩ := readerInv_run ran
  exact ⟨storage, reader exact_, List.prefix_refl _, ascending_pulledLog _ _⟩

/-- A client past a front of the log has collected what of the front lies beyond its start. -/
theorem Catching.collected {l₀ : List LogEntrySync} (catching : Catching filters start l₀ s)
    (passed : Cursor.after seqOf s.reader.point l₀ = []) :
    (Cursor.after seqOf start l₀).map (·.entry) <+: s.reader.collected := by
  rw [catching.reader.collected catching.front.ascending]
  refine List.IsPrefix.map _ ?_
  obtain ⟨later, isLog⟩ := catching.front.isPrefix
  refine ⟨Cursor.window seqOf start s.reader.point later, ?_⟩
  rw [← isLog, Cursor.window, Cursor.window, List.filter_append]
  congr 1
  refine List.filter_congr fun r mem => ?_
  have notBeyond : ¬ s.reader.point < seqOf r := by
    intro beyond
    have inAfter := Cursor.mem_after.mpr ⟨mem, beyond⟩
    rw [passed] at inAfter
    cases inAfter
  rw [decide_eq_decide]
  omega

end

/-- **A client that keeps asking catches up**, where its pages are read from the primary. From any state that any interleaving of writers and
client has reached, in any run in which the client takes three steps for each row that it is missing,
whatever the writers do meanwhile: the client has collected every matching row after its start that
was committed by then, in order. -/
theorem catches_up (filters : LogEntryPullPayload) (db : Database) (start : Int)
    (binds : Bindable filters start) (as bs : List ReaderAction) (s s' : ReaderState)
    (ran : run (readerStep filters) (.start db start) as = some s)
    (goes : run (readerStep filters) s bs = some s')
    (exact_ : Exact (s'.storage.db.rowsOf filters.teamId))
    (enough : 3 * s.missing filters ≤ bs.countP ReaderAction.isClient) :
    (Cursor.after seqOf start (pulledLog s.storage.db filters)).map (·.entry) <+:
      s'.reader.collected := by
  have storage := (readerInv_run ran).1
  have catching := catching_start ran ( exact_of_prefix (rows_run storage goes) exact_)
  obtain ⟨catching', reached⟩ := ahead_run binds catching goes exact_
  refine catching'.collected ?_
  rcases reached with done | paid
  · exact done
  · have delay := s.reader.delay_le
    refine List.length_eq_zero_iff.mp ?_
    unfold Reader.ahead at paid
    unfold ReaderState.missing at enough
    omega

/-- A row is committed. -/
def oneCommitted : List ReaderAction :=
  [.write (.submit 0 (payloadNamed "a") 0), .write (.allocate 0), .write (.insert 0)]

/-- The client asks for one row, and asks again; a row is committed meanwhile. -/
def askMeanwhile : List ReaderAction :=
  [.request (some 1), .write (.submit 1 (payloadNamed "b") 0), .page, .write (.allocate 1),
    .write (.insert 1), .request none]

theorem catches_up_overlapping :
    ∃ s s', run (readerStep wholeTeam) (.start .empty 0) oneCommitted = some s ∧
      run (readerStep wholeTeam) s askMeanwhile = some s' ∧
      (Cursor.after seqOf 0 (pulledLog s.storage.db wholeTeam)).map (·.entry) <+:
        s'.reader.collected :=
  ⟨_, _, rfl, rfl, catches_up wholeTeam .empty 0 (by decide) oneCommitted askMeanwhile _ _ rfl rfl
    (by decide) (by decide)⟩

/-! ## Truthful answers -/

/-- What a truthful answer says on a database: it is what the client receives, `hasNextPage` tells
whether a row is left there, an answer without another page completes the log, and one with another
page is not empty. -/
structure Truthful (filters : LogEntryPullPayload) (start : Int) (before after_ : ReaderState)
    (response : LogEntryPullResponsePayload) : Prop where
  received : after_.reader.received = before.reader.received ++ response.entries
  hasNextPage : response.hasNextPage = true ↔
    ∃ row ∈ pulledLog after_.storage.db filters, after_.reader.cursor < seqOf row
  complete : response.hasNextPage = false → after_.reader.received =
    (Cursor.after seqOf start (pulledLog after_.storage.db filters)).map (·.entry)
  progress : response.hasNextPage = true → response.entries ≠ []

/-- An answer is that of a page step. -/
theorem page_step_of_answer {filters : LogEntryPullPayload} {start : Int} {s s' : ReaderState}
    {sent : LogEntryPullResponsePayload}
    (inv : ReaderInv (pulledLog s.storage.db filters) start s.reader)
    (exact_ : Exact (s.storage.db.rowsOf filters.teamId)) (answered : answer filters s = some sent)
    (taken : readerStep filters s .page = some s') :
    ∃ limit st st' rows rest, PageStep filters s s' limit st st' rows rest ∧
      sent = response s.reader.cursor st' ∧ s'.reader = s.reader.receive sent := by
  cases inFlight : s.reader.request with
  | none =>
    simp only [answer, inFlight] at answered
    cases answered
  | some request =>
    obtain ⟨limit, st⟩ := request
    cases read : Storage.getPaginatedLogEntriesBySyncSeq s.storage.db filters.teamId
        (pageFilter (requestPayload filters limit s.reader.cursor) st.nextStartSeq) with
    | none =>
      simp only [answer, inFlight, read] at answered
      cases answered
    | some page =>
      obtain ⟨st', rows, rest, step⟩ := page_step inv exact_ inFlight read taken
      rcases step.outcome with ⟨isSent, received⟩ | ⟨noAnswer, -⟩
      · cases isSent.symm.trans answered
        exact ⟨limit, st, st', rows, rest, step, rfl, received⟩
      · cases noAnswer.symm.trans answered

/-- **Answers are truthful** where pages are read from the primary, at whatever moments the pages of a request were read and whatever was
committed in between: they say what is left of the log as it stands when they are sent. -/
theorem answers_truthfully (filters : LogEntryPullPayload) (db : Database) (start : Int)
    (as : List ReaderAction) (s s' : ReaderState) (sent : LogEntryPullResponsePayload)
    (ran : run (readerStep filters) (.start db start) as = some s)
    (exact_ : Exact (s.storage.db.rowsOf filters.teamId)) (answered : answer filters s = some sent)
    (taken : readerStep filters s .page = some s') : Truthful filters start s s' sent := by
  have catching := catching_start ran exact_
  have inv := catching.reader
  obtain ⟨limit, st, st', rows, rest, step, rfl, received⟩ :=
    page_step_of_answer inv exact_ answered taken
  have sameDb : s'.storage.db = s.storage.db := congrArg _ step.storage
  have inv' : ReaderInv (pulledLog s'.storage.db filters) start s'.reader :=
    (catching.step exact_ taken).reader
  have cursor : s'.reader.cursor = s'.reader.point := by
    rw [received]
    rfl
  have left : Cursor.after seqOf s'.reader.cursor (pulledLog s'.storage.db filters) = rest := by
    rw [cursor, sameDb]
    exact step.after_point inv exact_
  have isLeft : (response s.reader.cursor st').hasNextPage = !rest.isEmpty :=
    step.collected.hasNextPage
  refine ⟨by rw [received]; rfl, ?_, ?_, ?_⟩
  · rw [isLeft, Bool.not_eq_true', List.isEmpty_eq_false_iff, ← left, ne_eq,
      List.eq_nil_iff_forall_not_mem]
    simp only [Cursor.mem_after, not_forall, not_not]
  · intro last
    rw [isLeft, Bool.not_eq_false', List.isEmpty_iff] at last
    rw [inv'.received]
    congr 1
    refine List.filter_congr fun r mem => ?_
    have notBeyond : ¬ s'.reader.cursor < seqOf r := by
      intro beyond
      have inAfter := Cursor.mem_after.mpr ⟨mem, beyond⟩
      rw [left, last] at inAfter
      cases inAfter
    rw [decide_eq_decide]
    omega
  · intro more none_
    rw [isLeft, Bool.not_eq_true', List.isEmpty_eq_false_iff] at more
    have noEntry : st'.entries = [] := List.map_eq_nil_iff.mp none_
    have first : st.entries = [] := by
      have entries := step.collected.entries
      rw [noEntry] at entries
      exact (List.append_eq_nil_iff.mp entries.symm).1
    have noRow : rows = [] := by
      have entries := step.collected.entries
      rw [noEntry] at entries
      exact List.map_eq_nil_iff.mp (List.append_eq_nil_iff.mp entries.symm).2
    exact step.collected.progress first (List.append_ne_nil_of_right_ne_nil _ more) noRow

/-- A request for one row is under way, and another row was committed after it began. -/
def askedBefore : List ReaderAction :=
  oneCommitted ++ [.request (some 1), .write (.submit 1 (payloadNamed "b") 0), .write (.allocate 1),
    .write (.insert 1)]

theorem answers_truthfully_limited :
    ∃ s s' sent, run (readerStep wholeTeam) (.start .empty 0) askedBefore = some s ∧
      answer wholeTeam s = some sent ∧ sent.hasNextPage = true ∧ Truthful wholeTeam 0 s s' sent :=
  ⟨_, _, _, rfl, rfl, rfl,
    answers_truthfully wholeTeam .empty 0 askedBefore _ _ _ rfl (by decide) rfl rfl⟩

end QuietStorage.Sync
