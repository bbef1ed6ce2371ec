import QuietStorage.Lib.Packing
import QuietStorage.Storage.Queries

/-!
# Sync.Pull — one response of the sync-sequence pull

`_getPaginatedLogEntriesBySyncSeq` builds a response out of as many pages of 200 rows as fit: an
inner loop takes the items of a page one by one until the bytes or the requested count are used up
(`consume`), an outer loop asks for the next page (`turn`). The flags of the source (`hitSizeLimit`,
`hitLimit`, `hasNextPage`) and its running values are the fields of `PullState`.

`turn` is one round of the outer loop on the page it was given, so the rounds of one response may
read different databases: `pullLoop` runs them against one database, and the reader that polls while
others write (`Sync.Reader`) takes them one at a time.

`consume_spec` says what the inner loop does for any page: it takes a front of the items, and
`hasNextPage` says whether the page or the table goes on after it. `turn_spec` lifts it to the log.
-/

set_option autoImplicit false

namespace QuietStorage.Sync

open Lib Lib.Packing Storage

/-- `1000 * 1000 * 0.8`: a megabyte with a 20% buffer. -/
def maxBytes : Nat := 800000

/-- `Buffer.byteLength(JSON.stringify({ highestSyncSeq, hasNextPage }))`. -/
def metadataBytes (highestSyncSeq : Int) (hasNextPage : Bool) : Nat :=
  ("\x7b\"highestSyncSeq\":" ++ toString highestSyncSeq ++ ",\"hasNextPage\":" ++
    toString hasNextPage ++ "\x7d").utf8ByteSize

/-- The variables of the two loops. -/
structure PullState where
  entries : List PageItem := []
  hasNextPage : Bool := false
  usedBytes : Nat := 0
  hitSizeLimit : Bool := false
  hitLimit : Bool := false
  nextStartSeq : Int
  deriving DecidableEq

/-- Take one item. -/
def PullState.push (st : PullState) (item : PageItem) (candidateHasNextPage : Bool) : PullState :=
  { st with
    entries := st.entries ++ [item]
    usedBytes := st.usedBytes + item.entry.length
    nextStartSeq := toSyncSeq item.syncSeq
    hasNextPage := candidateHasNextPage }

/-- The inner loop, from an item to the end of the page. -/
def consume (limit : Option Nat) (pageHasNextPage : Bool) : List PageItem → PullState → PullState
  | [], st => st
  | item :: items, st =>
    let entryBytes := item.entry.length
    let candidateHasNextPage := if items.isEmpty then pageHasNextPage else true
    let metadata := metadataBytes (toSyncSeq item.syncSeq) candidateHasNextPage
    if 0 < st.entries.length ∧ maxBytes < st.usedBytes + entryBytes + metadata then
      { st with hasNextPage := true, hitSizeLimit := true }
    else
      let st := st.push item candidateHasNextPage
      if maxBytes ≤ st.usedBytes + metadata then
        { st with hitSizeLimit := true }
      else if limit.any (fun limit => decide (limit ≤ st.entries.length)) then
        { st with hitLimit := true }
      else
        consume limit pageHasNextPage items st

/-- What a round of the outer loop ends with: the loop is left, or goes on. -/
inductive Turn where
  | done (st : PullState)
  | more (st : PullState)
  deriving DecidableEq

/-- The end of a round, after the inner loop: whether to leave the outer loop. -/
def leave (pageHasNextPage : Bool) (st : PullState) : Turn :=
  if st.hitLimit then .done st
  else if st.hitSizeLimit || !pageHasNextPage then
    if !st.hitSizeLimit && !pageHasNextPage then .done { st with hasNextPage := false }
    else .done st
  else if st.entries.isEmpty then .done { st with hasNextPage := false }
  else .more st

theorem leave_hitLimit {st : PullState} (p : Bool) (count : st.hitLimit = true) :
    leave p st = .done st := by
  simp only [leave, count, if_true]

theorem leave_hitSizeLimit {st : PullState} (p : Bool) (count : st.hitLimit = false)
    (bytes : st.hitSizeLimit = true) : leave p st = .done st := by
  simp only [leave, count, bytes, Bool.false_eq_true, if_false, Bool.true_or, Bool.not_true,
    Bool.false_and, if_true]

theorem leave_last {st : PullState} (count : st.hitLimit = false)
    (bytes : st.hitSizeLimit = false) : leave false st = .done { st with hasNextPage := false } := by
  simp only [leave, count, bytes, Bool.false_eq_true, if_false, Bool.false_or, Bool.not_false,
    Bool.and_self, if_true]

theorem leave_more {st : PullState} (count : st.hitLimit = false)
    (bytes : st.hitSizeLimit = false) (some_ : st.entries ≠ []) : leave true st = .more st := by
  simp only [leave, count, bytes, Bool.false_eq_true, if_false, Bool.false_or, Bool.not_true,
    List.isEmpty_eq_false_iff.mpr some_]

/-- One round of the outer loop, on the page it read. -/
def turn (limit : Option Nat) (page : Page) (st : PullState) : Turn :=
  if page.items.isEmpty then
    -- the source returns early when nothing was collected, with the same values
    .done { st with hasNextPage := false }
  else
    leave page.hasNextPage (consume limit page.hasNextPage page.items st)

theorem limit_pos {limit : Option Nat} (positive : limit ≠ some 0) :
    ∀ n, limit = some n → 0 < n := by
  rintro n rfl
  exact Nat.pos_of_ne_zero fun zero => positive (congrArg some zero)

theorem pageSize_pos {limit : Option Nat} (positive : limit ≠ some 0) :
    0 < min (limit.getD 200) 200 := by
  cases limit with
  | none => decide
  | some n =>
    have := limit_pos positive n rfl
    simp only [Option.getD_some]
    omega

/-- The filter of the page that starts after a sequence number. -/
def pageFilter (payload : LogEntryPullPayload) (startSeq : Int) : SyncSeqFilter where
  limit := some (min (payload.limit.getD 200) 200)
  startSeq := startSeq
  endSeq := payload.endSeq
  hashedDbId := payload.hashedDbId
  hash := payload.hash

/-- The response built from the variables of the loops. -/
def response (resolvedStartSeq : Int) (st : PullState) : LogEntryPullResponsePayload where
  entries := st.entries.map (·.entry)
  hasNextPage := st.hasNextPage
  highestSyncSeq := st.entries.getLast?.map fun item => toSyncSeq item.syncSeq
  resolvedStartSeq := some resolvedStartSeq

/-- The outer loop against one database, for at most so many rounds. A query that throws ends the
call. -/
def pullLoop (db : Database) (payload : LogEntryPullPayload) : Nat → PullState → Option PullState
  | 0, _ => none
  | rounds + 1, st => do
    let page ← Storage.getPaginatedLogEntriesBySyncSeq db payload.teamId
      (pageFilter payload st.nextStartSeq)
    match turn payload.limit page st with
    | .done st => some st
    | .more st => pullLoop db payload rounds st

/-- `payload.startSeq`, or the number that `payload.startTs` resolves to. -/
def resolveStartSeq (db : Database) (payload : LogEntryPullPayload) : Option Int :=
  match payload.startSeq with
  | some startSeq => some startSeq
  | none => resolveSyncSeqForTimestamp db payload.teamId (payload.startTs.getD 0)

/-- `_getPaginatedLogEntriesBySyncSeq` on a table that does not change meanwhile. Each round but the
last takes a row, so one round more than there are rows is enough. -/
def getPaginatedLogEntriesBySyncSeq (db : Database) (payload : LogEntryPullPayload) :
    Option LogEntryPullResponsePayload := do
  let resolvedStartSeq ← resolveStartSeq db payload
  let st ← pullLoop db payload (db.logEntrySync.rows.length + 1) { nextStartSeq := resolvedStartSeq }
  return response resolvedStartSeq st

/-! ## The inner loop -/

/-- The books of the loops are in order: the bytes are those of the entries, more than one entry
fits with the metadata of the last, and the count is kept. -/
structure Accounts (limit : Option Nat) (st : PullState) : Prop where
  used : st.usedBytes = (st.entries.map fun item => item.entry.length).sum
  fits : st.entries.length ≤ 1 ∨ ∃ last, st.entries.getLast? = some last ∧
    st.usedBytes + metadataBytes (toSyncSeq last.syncSeq) st.hasNextPage ≤ maxBytes
  limited : ∀ n, limit = some n → st.entries.length ≤ n

/-- A state in which the loops go on: no flag is set, there is room under the count, and a row
follows what was collected. -/
structure GoesOn (limit : Option Nat) (st : PullState) : Prop where
  sizeLimit : st.hitSizeLimit = false
  countLimit : st.hitLimit = false
  room : ∀ n, limit = some n → st.entries.length < n
  follows : st.entries ≠ [] → st.hasNextPage = true

/-- What the inner loop leaves when it took `taken` and left `rest` of a page. -/
structure Consumed (limit : Option Nat) (pageHasNextPage : Bool) (taken rest : List PageItem)
    (st st' : PullState) : Prop where
  entries : st'.entries = st.entries ++ taken
  next : st'.nextStartSeq =
    taken.getLast?.elim st.nextStartSeq fun item => toSyncSeq item.syncSeq
  hasNextPage : taken ++ rest ≠ [] → st'.hasNextPage = (!rest.isEmpty || pageHasNextPage)
  exhausts : st'.hitSizeLimit = false → st'.hitLimit = false → rest = [] ∧
    ∀ n, limit = some n → st'.entries.length < n
  progress : st.entries = [] → taken ++ rest ≠ [] → taken ≠ []
  accounts : Accounts limit st'

/-- The limits of a response. -/
def pullLimits (limit : Option Nat) : Limits PageItem where
  maxBytes := maxBytes
  limit := limit
  size := fun item => item.entry.length
  overhead := fun item hasNextPage => metadataBytes (toSyncSeq item.syncSeq) hasNextPage

/-- The state after the inner loop filled the response from a page. -/
def PullState.fill (st : PullState) (more : Bool) (p : Packed PageItem) : PullState where
  entries := st.entries ++ p.taken
  hasNextPage := !p.rest.isEmpty || more
  usedBytes := st.usedBytes + (p.taken.map fun item => item.entry.length).sum
  hitSizeLimit := decide (p.stop = .size)
  hitLimit := decide (p.stop = .count)
  nextStartSeq := p.taken.getLast?.elim st.nextStartSeq fun item => toSyncSeq item.syncSeq

/-- Filling after an item was taken is filling with the item first. -/
theorem PullState.fill_push (st : PullState) (item : PageItem) (candidate more : Bool)
    (p : Packed PageItem) :
    (st.push item candidate).fill more p = st.fill more (p.cons item) := by
  have next : p.taken.getLast?.elim (toSyncSeq item.syncSeq) (fun item => toSyncSeq item.syncSeq) =
      (item :: p.taken).getLast?.elim st.nextStartSeq fun item => toSyncSeq item.syncSeq := by
    rw [List.getLast?_cons]
    cases p.taken.getLast? <;> rfl
  simp [fill, push, next, Nat.add_assoc]

/-- **The inner loop fills the response.** -/
theorem consume_eq {limit : Option Nat} (more : Bool) (items : List PageItem) (some_ : items ≠ [])
    {st : PullState} (size : st.hitSizeLimit = false) (count : st.hitLimit = false) :
    consume limit more items st =
      st.fill more ((pullLimits limit).pack more st.entries.length st.usedBytes items) := by
  induction items generalizing st with
  | nil => exact absurd rfl some_
  | cons item items ih =>
    have candidateIs : (if items.isEmpty then more else true) = (!items.isEmpty || more) := by
      cases items <;> rfl
    simp only [consume]
    rw [candidateIs]
    split
    · next tooLarge =>
      rw [Limits.pack_over (L := pullLimits limit) tooLarge]
      simp [PullState.fill, count]
    · next fits =>
      split
      · next reached =>
        rw [Limits.pack_reached (L := pullLimits limit) fits reached]
        simp [PullState.fill, PullState.push, count]
      · next below =>
        have pushed : (st.push item (!items.isEmpty || more)).entries.length =
            st.entries.length + 1 := List.length_append
        rw [pushed]
        split
        · next counted =>
          rw [Limits.pack_counted (L := pullLimits limit) below counted]
          simp [PullState.fill, PullState.push, size]
        · next room =>
          rw [Limits.pack_goesOn (L := pullLimits limit) below room, ← PullState.fill_push]
          cases items with
          | nil => simp [consume, Limits.pack, PullState.fill, PullState.push, size, count]
          | cons second items =>
            have later := @ih (List.cons_ne_nil _ _) (st.push item true) size count
            rw [show (st.push item true).entries.length = _ from pushed] at later
            exact later

/-- **The inner loop takes a front of the page.** -/
theorem consume_spec {limit : Option Nat} (pageHasNextPage : Bool) (items : List PageItem)
    (some_ : items ≠ []) {st : PullState} (accounts : Accounts limit st) (goesOn : GoesOn limit st) :
    ∃ taken rest, items = taken ++ rest ∧
      Consumed limit pageHasNextPage taken rest st (consume limit pageHasNextPage items st) := by
  have sound := Limits.pack_sound (L := pullLimits limit) pageHasNextPage items st.entries.length
    st.usedBytes goesOn.room
  rw [consume_eq pageHasNextPage items some_ goesOn.sizeLimit goesOn.countLimit]
  generalize (pullLimits limit).pack pageHasNextPage st.entries.length st.usedBytes items = p at sound
  have progress : st.entries = [] → p.taken ≠ [] := by
    intro none_
    exact sound.progress (by rw [none_, List.length_nil]) some_
  have length_ : (st.fill pageHasNextPage p).entries.length = st.entries.length + p.taken.length :=
    List.length_append
  refine ⟨p.taken, p.rest, sound.split, rfl, rfl, fun _ => rfl, ?_, fun first _ => progress first,
    ?_, ?_, ?_⟩
  · intro size count
    have ended : p.stop = .ended := by
      cases stop : p.stop with
      | size => simp [PullState.fill, stop] at size
      | count => simp [PullState.fill, stop] at count
      | ended => rfl
    rw [length_]
    exact sound.ended ended
  · simp only [PullState.fill, accounts.used, List.map_append, List.sum_append]
  · rw [length_]
    rcases sound.fits with none_ | one | ⟨last, isLast, within⟩
    · -- the first item of the page did not fit: the response ends as it was announced
      have announced : (st.fill pageHasNextPage p).hasNextPage = st.hasNextPage := by
        rw [goesOn.follows fun first => progress first none_, PullState.fill]
        cases rest : p.rest with
        | nil => exact absurd (by rw [sound.split, none_, rest]; rfl) some_
        | cons => rfl
      rw [announced]
      simpa [PullState.fill, none_] using accounts.fits
    · exact .inl one
    · refine .inr ⟨last, ?_, within⟩
      simp [PullState.fill, List.getLast?_append, isLast]
  · intro n isLimit
    rw [length_]
    exact sound.limited n isLimit

/-! ## A round on the log -/

/-- The rows that a pull with these filters reads, from any start. -/
def pulledLog (db : Database) (payload : LogEntryPullPayload) : List LogEntrySync :=
  log db payload.teamId (pageFilter payload 0)

/-- The sequence numbers of the rows are numbers of the language. -/
def Exact (rows : List LogEntrySync) : Prop := ∀ r ∈ rows, JsNumber.Representable (seqOf r)

instance (rows : List LogEntrySync) : Decidable (Exact rows) :=
  inferInstanceAs (Decidable (∀ r ∈ rows, JsNumber.Representable (seqOf r)))

/-- Up to `2 ^ 53` every sequence number is. -/
theorem exact_of_small {rows : List LogEntrySync}
    (small : ∀ r ∈ rows, (seqOf r).natAbs ≤ 2 ^ JsNumber.precision) : Exact rows :=
  fun r mem => JsNumber.representable_of_natAbs_le (small r mem)

/-- What a round leaves when it took `rows` of the log and left `rest`. -/
structure Collected (limit : Option Nat) (rows rest : List LogEntrySync) (st st' : PullState) :
    Prop where
  entries : st'.entries = st.entries ++ rows.map toItem
  next : st'.nextStartSeq = rows.getLast?.elim st.nextStartSeq seqOf
  hasNextPage : st'.hasNextPage = !rest.isEmpty
  progress : st.entries = [] → rows ++ rest ≠ [] → rows ≠ []
  accounts : Accounts limit st'

/-- The next round starts where this one stopped. -/
theorem Collected.after_next {limit : Option Nat} {rows rest l : List LogEntrySync}
    {st st' : PullState} (collected : Collected limit rows rest st st')
    (ascending : Cursor.Ascending seqOf l)
    (split_ : Cursor.after seqOf st.nextStartSeq l = rows ++ rest) :
    Cursor.after seqOf st'.nextStartSeq l = rest := by
  rw [collected.next]
  cases last : rows.getLast? with
  | none =>
    rw [List.getLast?_eq_none_iff.mp last] at split_
    exact split_
  | some row => exact (Cursor.page_eq_window ascending split_ last).2.1.symm

/-- Two rounds in a row are one that took the rows of both. -/
theorem Collected.trans {limit : Option Nat} {rows rows' rest : List LogEntrySync}
    {st st' st'' : PullState} (first : Collected limit rows (rows' ++ rest) st st')
    (second : Collected limit rows' rest st' st'') (some_ : rows ≠ []) :
    Collected limit (rows ++ rows') rest st st'' := by
  refine ⟨?_, ?_, second.hasNextPage, ?_, second.accounts⟩
  · rw [second.entries, first.entries, List.map_append, List.append_assoc]
  · rw [second.next, first.next, List.getLast?_append]
    cases rows'.getLast? <;> rfl
  · intro _ _ none_
    exact some_ (List.append_eq_nil_iff.mp none_).1

/-- A round that took `rows` and left `rest`; one that goes on took a row, left a row and is ready
for the next. -/
def Turn.Sound (limit : Option Nat) (rows rest : List LogEntrySync) (st : PullState) :
    Turn → Prop
  | .done st' => Collected limit rows rest st st'
  | .more st' =>
    Collected limit rows rest st st' ∧ GoesOn limit st' ∧ rows ≠ [] ∧ rest ≠ []

/-- The inner loop on a page of the log. -/
theorem collected_of_consumed {limit : Option Nat} {taken left rest : List LogEntrySync}
    {st st' : PullState} (exact_ : Exact taken) (some_ : taken ++ left ≠ [])
    (consumed : Consumed limit (!rest.isEmpty) (taken.map toItem) (left.map toItem) st st') :
    Collected limit taken (left ++ rest) st st' := by
  have someItem : taken.map toItem ++ left.map toItem ≠ [] := by
    rw [← List.map_append]
    exact fun none_ => some_ (List.map_eq_nil_iff.mp none_)
  refine ⟨consumed.entries, ?_, ?_, ?_, consumed.accounts⟩
  · rw [consumed.next, List.getLast?_map]
    cases last : taken.getLast? with
    | none => rfl
    | some row =>
      have isExact := exact_ row (List.mem_of_getLast? last)
      show toSyncSeq (toSyncSeq row.syncSeq) = seqOf row
      rw [toSyncSeq_of_representable isExact, toSyncSeq_of_representable isExact]
  · rw [consumed.hasNextPage someItem]
    cases left <;> rfl
  · intro first _ none_
    exact consumed.progress first someItem (List.map_eq_nil_iff.mpr none_)

/-- The end of a round, after the inner loop took `taken` of a page and left `left`. -/
theorem leave_spec {limit : Option Nat} {taken left rest : List LogEntrySync} {st st' : PullState}
    (some_ : taken ++ left ≠ [])
    (consumed : Consumed limit (!rest.isEmpty) (taken.map toItem) (left.map toItem) st st')
    (collected : Collected limit taken (left ++ rest) st st') :
    (leave (!rest.isEmpty) st').Sound limit taken (left ++ rest) st := by
  cases count : st'.hitLimit with
  | true =>
    rw [leave_hitLimit _ count]
    exact collected
  | false =>
    cases bytes : st'.hitSizeLimit with
    | true =>
      rw [leave_hitSizeLimit _ count bytes]
      exact collected
    | false =>
      obtain ⟨noneLeft, room⟩ := consumed.exhausts bytes count
      obtain rfl : left = [] := List.map_eq_nil_iff.mp noneLeft
      cases rest with
      | nil =>
        -- the last page, taken whole: `hasNextPage` is false already
        have unchanged : { st' with hasNextPage := false } = st' := by
          have : st'.hasNextPage = false := collected.hasNextPage
          cases st'
          cases this
          rfl
        rw [show (!([] : List LogEntrySync).isEmpty) = false from rfl, leave_last count bytes,
          unchanged]
        exact collected
      | cons next rest =>
        have someTaken : taken ≠ [] := by
          rwa [List.append_nil] at some_
        have someEntry : st'.entries ≠ [] := by
          rw [collected.entries]
          simp [someTaken]
        have goes : GoesOn limit st' := ⟨bytes, count, room, fun _ => collected.hasNextPage⟩
        rw [show (!(next :: rest).isEmpty) = true from rfl, leave_more count bytes someEntry]
        exact ⟨collected, goes, someTaken, List.cons_ne_nil _ _⟩

/-- **A round takes a front of the log beyond its start.** -/
theorem turn_spec {db : Database} (payload : LogEntryPullPayload) {st : PullState} {page : Page}
    (exact_ : Exact (Cursor.after seqOf st.nextStartSeq (pulledLog db payload)))
    (positive : payload.limit ≠ some 0)
    (accounts : Accounts payload.limit st) (goesOn : GoesOn payload.limit st)
    (follows : st.entries ≠ [] →
      Cursor.after seqOf st.nextStartSeq (pulledLog db payload) ≠ [])
    (read : Storage.getPaginatedLogEntriesBySyncSeq db payload.teamId
      (pageFilter payload st.nextStartSeq) = some page) :
    ∃ rows rest, Cursor.after seqOf st.nextStartSeq (pulledLog db payload) = rows ++ rest ∧
      (turn payload.limit page st).Sound payload.limit rows rest st := by
  obtain ⟨rows, rest, split_, items, hasNext, size⟩ := page_spec read
  have split_ : Cursor.after seqOf st.nextStartSeq (pulledLog db payload) = rows ++ rest := split_
  have pageSize : 0 < min ((pageFilter payload st.nextStartSeq).limit.getD 200) 200 := by
    have := pageSize_pos positive
    simp only [pageFilter, Option.getD_some]
    omega
  have length_ : (matching db payload.teamId (pageFilter payload st.nextStartSeq)).length =
      rows.length + rest.length := by
    rw [matching_eq_after, ← List.length_append]
    exact congrArg List.length split_
  unfold turn
  split
  · next empty =>
    -- nothing lies beyond the start, so nothing was collected before either
    have noRows : rows = [] := by
      rw [items, List.isEmpty_map, List.isEmpty_iff] at empty
      exact empty
    have noRest : rest = [] := by
      rw [noRows] at size length_
      rw [List.length_nil] at size length_
      exact List.length_eq_zero_iff.mp (by omega)
    have first : st.entries = [] := by
      by_contra some_
      exact follows some_ (by rw [split_, noRows, noRest]; rfl)
    refine ⟨[], [], by rw [split_, noRows, noRest], ?_⟩
    refine ⟨(List.append_nil _).symm, rfl, rfl, fun _ none_ => none_, ?_⟩
    refine ⟨accounts.used, .inl ?_, accounts.limited⟩
    show st.entries.length ≤ 1
    rw [first, List.length_nil]
    exact Nat.zero_le 1
  · next some_ =>
    have someItem : page.items ≠ [] := fun none_ => some_ (List.isEmpty_iff.mpr none_)
    have someRow : rows ≠ [] := by
      intro none_
      exact someItem (by rw [items, none_]; rfl)
    obtain ⟨takenItems, leftItems, itemSplit, consumed⟩ :=
      consume_spec page.hasNextPage page.items someItem accounts goesOn
    rw [items] at itemSplit
    obtain ⟨taken, left, rowSplit, rfl, rfl⟩ := List.map_eq_append_iff.mp itemSplit
    subst rowSplit
    rw [hasNext] at consumed
    have exactTaken : Exact taken := by
      intro r mem
      refine exact_ r ?_
      rw [split_]
      exact List.mem_append_left _ (List.mem_append_left _ mem)
    have collected := collected_of_consumed exactTaken someRow consumed
    refine ⟨taken, left ++ rest, by rw [split_, List.append_assoc], ?_⟩
    rw [hasNext]
    exact leave_spec someRow consumed collected

end QuietStorage.Sync
