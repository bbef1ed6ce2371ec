import QuietStorage.Lib.JsValue
import QuietStorage.Lib.Packing
import QuietStorage.Storage.CursorQueries
import QuietStorage.Sync.Pull

/-!
# Sync.CursorPull — one response of the cursor pull

`_getPaginatedLogEntriesByCursor` answers the clients that know no sequence numbers: it reads the
rows between two times in the order of positions and gives a cursor to go on from. Its two loops are
those of the sequence pull with a cursor in the place of the number: the inner one (`consumeItems`)
takes the items of a page until the bytes or the requested count are used up, the outer one
(`cursorRound`) asks for the next page. One body serves both directions.

The inner loop fills a response in the sense of `Lib.Packing` (`consumeItems_eq`), and a round is one
of three (`round_cases`): the limits stop it, the page was the last, or the next page follows.
-/

set_option autoImplicit false

namespace QuietStorage.Sync

open Lib Storage Packing

/-- A property of the metadata that is a cursor or `null`. -/
def jsonCursor : Option String → String
  | none => "null"
  | some cursor => JsValue.quote cursor

/-- `Buffer.byteLength(JSON.stringify({ cursor, highestSyncSeq, resolvedStartSeq, hasNextPage }))`. -/
def cursorMetadataBytes (cursor : Option String) (highestSyncSeq resolvedStartSeq : Int)
    (hasNextPage : Bool) : Nat :=
  ("\x7b\"cursor\":" ++ jsonCursor cursor ++ ",\"highestSyncSeq\":" ++ toString highestSyncSeq ++
    ",\"resolvedStartSeq\":" ++ toString resolvedStartSeq ++ ",\"hasNextPage\":" ++
    toString hasNextPage ++ "\x7d").utf8ByteSize

/-- The variables of the two loops. -/
structure CursorState where
  entries : List LogEntrySync := []
  cursor : Option String
  nextCursor : Option String
  hasNextPage : Bool := false
  usedBytes : Nat := 0
  hitSizeLimit : Bool := false
  hitLimit : Bool := false
  deriving DecidableEq

/-- Take one item. -/
def CursorState.push (st : CursorState) (item : LogEntrySync) (candidateCursor : Option String)
    (candidateHasNextPage : Bool) : CursorState :=
  { st with
    entries := st.entries ++ [item]
    usedBytes := st.usedBytes + item.entry.length
    cursor := candidateCursor
    hasNextPage := candidateHasNextPage }

/-- The inner loop, from an item to the end of the page. -/
def consumeItems (codec : CursorCodec) (limit : Option Nat) (resolvedStartSeq : Int)
    (page : CursorPage) : List LogEntrySync → CursorState → CursorState
  | [], st => st
  | item :: items, st =>
    let entryBytes := item.entry.length
    let candidateCursor := if items.isEmpty then page.endCursor else some (codec.cursorOf item)
    let candidateHasNextPage := if items.isEmpty then page.hasNextPage else true
    let metadata := cursorMetadataBytes candidateCursor (toSyncSeq item.syncSeq) resolvedStartSeq
      candidateHasNextPage
    if 0 < st.entries.length ∧ maxBytes < st.usedBytes + entryBytes + metadata then
      { st with hasNextPage := true, hitSizeLimit := true }
    else
      let st := st.push item candidateCursor candidateHasNextPage
      if maxBytes ≤ st.usedBytes + metadata then
        { st with hitSizeLimit := true }
      else if limit.any (fun limit => decide (limit ≤ st.entries.length)) then
        { st with hitLimit := true }
      else
        consumeItems codec limit resolvedStartSeq page items st

/-- What a round of the outer loop ends with. -/
inductive Round where
  | done (st : CursorState)
  | more (st : CursorState)
  deriving DecidableEq

/-- The end of a round, after the inner loop: whether to leave the outer loop. -/
def endRound (page : CursorPage) (st : CursorState) : Round :=
  if st.hitLimit then .done st
  else if st.hitSizeLimit || !page.hasNextPage then
    if !st.hitSizeLimit && !page.hasNextPage then .done { st with hasNextPage := false }
    else .done st
  else
    match page.endCursor with
    | none => .done { st with nextCursor := none, hasNextPage := false }
    | some nextCursor => .more { st with nextCursor := some nextCursor }

/-- One round of the outer loop, on the page it read. -/
def cursorRound (codec : CursorCodec) (limit : Option Nat) (resolvedStartSeq : Int)
    (page : CursorPage) (st : CursorState) : Round :=
  if page.items.isEmpty then
    -- the source returns early when nothing was collected, with the same values
    .done { st with hasNextPage := false }
  else
    endRound page (consumeItems codec limit resolvedStartSeq page page.items st)

/-- The filter of every page. -/
def timestampFilter (payload : LogEntryPullPayload) (startTs : Int) : TimestampFilter where
  limit := min (payload.limit.getD 200) 200
  startTs := startTs
  endTs := payload.endTs
  hashedDbId := payload.hashedDbId
  hash := payload.hash
  direction := payload.direction

/-- The response built from the variables of the loops. -/
def cursorResponse (resolvedStartSeq : Int) (st : CursorState) : LogEntryPullResponsePayload where
  entries := st.entries.map (·.entry)
  cursor := st.cursor
  hasNextPage := st.hasNextPage
  highestSyncSeq := st.entries.getLast?.map fun entry => toSyncSeq entry.syncSeq
  resolvedStartSeq := some resolvedStartSeq

section
variable {κ : Type} [LinearOrder κ] (collate : String ↪ κ) (codec : CursorCodec)

/-- The outer loop, for at most so many rounds. A query that throws ends the call. -/
def cursorLoop (db : Database) (payload : LogEntryPullPayload) (startTs resolvedStartSeq : Int) :
    Nat → CursorState → Option CursorState
  | 0, _ => none
  | rounds + 1, st => do
    let page ← Storage.getPaginatedLogEntries collate codec db payload.teamId
      (timestampFilter payload startTs) st.nextCursor
    match cursorRound codec payload.limit resolvedStartSeq page st with
    | .done st => some st
    | .more st => cursorLoop db payload startTs resolvedStartSeq rounds st

/-- The loops of a call, on a table that does not change meanwhile. A round that goes on moves the
cursor past a row, so one round more than there are rows is enough. -/
def collectByCursor (db : Database) (payload : LogEntryPullPayload) (startTs resolvedStartSeq : Int) :
    Option CursorState :=
  cursorLoop collate codec db payload startTs resolvedStartSeq (db.logEntrySync.rows.length + 1)
    { cursor := payload.cursor, nextCursor := payload.cursor }

/-- `_getPaginatedLogEntriesByCursor` up to its response, with the number that `startTs` resolves to. -/
def callByCursor (db : Database) (payload : LogEntryPullPayload) (startTs : Int) :
    Option (Int × CursorState) := do
  let resolvedStartSeq ← resolveSyncSeqForTimestamp db payload.teamId startTs
  let st ← collectByCursor collate codec db payload startTs resolvedStartSeq
  return (resolvedStartSeq, st)

/-- `_getPaginatedLogEntriesByCursor`; `startTs` is that of the payload. -/
def getPaginatedLogEntriesByCursor (db : Database) (payload : LogEntryPullPayload) (startTs : Int) :
    Option LogEntryPullResponsePayload :=
  (callByCursor collate codec db payload startTs).map fun call => cursorResponse call.1 call.2

/-- `getPaginatedLogEntries`, of a request that the permission check lets through. -/
def getPaginatedLogEntries (db : Database) (payload : LogEntryPullPayload) :
    Option LogEntryPullResponsePayload :=
  -- `useSyncSeqPagination`
  if payload.startSeq.isSome || payload.endSeq.isSome then getPaginatedLogEntriesBySyncSeq db payload
  else payload.startTs.bind (getPaginatedLogEntriesByCursor collate codec db payload)

/-- A client that asks again with the cursor it got for as long as the response has `hasNextPage`, for
at most so many calls. -/
def followCursor (db : Database) (payload : LogEntryPullPayload) (startTs : Int) :
    Nat → Option String → Option (List (Int × CursorState))
  | 0, _ => none
  | calls + 1, cursor => do
    let call ← callByCursor collate codec db { payload with cursor := cursor } startTs
    if call.2.hasNextPage then
      let later ← followCursor db payload startTs calls call.2.cursor
      return call :: later
    else
      return [call]

end

/-! ## The inner loop -/

/-- The limits of a response. -/
def responseLimits (codec : CursorCodec) (limit : Option Nat) (resolvedStartSeq : Int) :
    Limits LogEntrySync where
  maxBytes := maxBytes
  limit := limit
  size := fun r => r.entry.length
  overhead := fun r hasNextPage =>
    cursorMetadataBytes (some (codec.cursorOf r)) (toSyncSeq r.syncSeq) resolvedStartSeq hasNextPage

/-- The cursor of the last of some items. -/
def lastCursor (codec : CursorCodec) (items : List LogEntrySync) (otherwise : Option String) :
    Option String :=
  (items.getLast?.map codec.cursorOf).or otherwise

/-- The state after the inner loop filled the response from a page. -/
def CursorState.fill (codec : CursorCodec) (st : CursorState) (more : Bool)
    (p : Packed LogEntrySync) : CursorState where
  entries := st.entries ++ p.taken
  cursor := lastCursor codec p.taken st.cursor
  nextCursor := st.nextCursor
  hasNextPage := !p.rest.isEmpty || more
  usedBytes := st.usedBytes + (p.taken.map fun r => r.entry.length).sum
  hitSizeLimit := decide (p.stop = .size)
  hitLimit := decide (p.stop = .count)

/-- No limit was hit yet. -/
structure CursorState.Open (st : CursorState) : Prop where
  size : st.hitSizeLimit = false
  count : st.hitLimit = false

theorem lastCursor_cons (codec : CursorCodec) (item : LogEntrySync) (items : List LogEntrySync)
    (otherwise : Option String) :
    lastCursor codec (item :: items) otherwise =
      lastCursor codec items (some (codec.cursorOf item)) := by
  rw [lastCursor, lastCursor, List.getLast?_cons]
  cases items.getLast? <;> rfl

/-- Filling after an item was taken is filling with the item first. -/
theorem fill_push (codec : CursorCodec) (st : CursorState) (item : LogEntrySync) (candidate more : Bool)
    (p : Packed LogEntrySync) :
    (st.push item (some (codec.cursorOf item)) candidate).fill codec more p =
      st.fill codec more (p.cons item) := by
  simp [CursorState.fill, CursorState.push, lastCursor_cons, Nat.add_assoc]

/-- **The inner loop fills the response.** -/
theorem consumeItems_eq (codec : CursorCodec) (limit : Option Nat) (resolvedStartSeq : Int)
    (page : CursorPage) (items : List LogEntrySync) (some_ : items ≠ [])
    (ends : page.endCursor = lastCursor codec items none) (st : CursorState) (isOpen : st.Open) :
    consumeItems codec limit resolvedStartSeq page items st =
      st.fill codec page.hasNextPage ((responseLimits codec limit resolvedStartSeq).pack
        page.hasNextPage st.entries.length st.usedBytes items) := by
  induction items generalizing st with
  | nil => exact absurd rfl some_
  | cons item items ih =>
    have candidateCursor : (if items.isEmpty then page.endCursor else some (codec.cursorOf item)) =
        some (codec.cursorOf item) := by
      cases items with
      | nil => simp [ends, lastCursor]
      | cons => rfl
    have candidateHasNextPage : (if items.isEmpty then page.hasNextPage else true) =
        (!items.isEmpty || page.hasNextPage) := by
      cases items <;> rfl
    simp only [consumeItems]
    rw [candidateCursor, candidateHasNextPage]
    split
    · next tooLarge =>
      rw [Limits.pack_over (L := responseLimits codec limit resolvedStartSeq) tooLarge]
      simp [CursorState.fill, lastCursor, isOpen.count]
    · next fits =>
      split
      · next reached =>
        rw [Limits.pack_reached (L := responseLimits codec limit resolvedStartSeq) fits reached]
        simp [CursorState.fill, lastCursor, CursorState.push, isOpen.count]
      · next below =>
        split
        · next counted =>
          have counted : limit.any (fun limit => decide (limit ≤ st.entries.length + 1)) = true := by
            simpa [CursorState.push] using counted
          rw [Limits.pack_counted (L := responseLimits codec limit resolvedStartSeq) below counted]
          simp [CursorState.fill, lastCursor, CursorState.push, isOpen.size]
        · next room =>
          have room : ¬ limit.any (fun limit => decide (limit ≤ st.entries.length + 1)) = true := by
            simpa [CursorState.push] using room
          rw [Limits.pack_goesOn (L := responseLimits codec limit resolvedStartSeq) below room]
          cases items with
          | nil =>
            simp [consumeItems, Limits.pack, CursorState.fill, lastCursor, CursorState.push,
              isOpen.size, isOpen.count]
          | cons second items =>
            have pushed := ih (List.cons_ne_nil _ _) (ends.trans (lastCursor_cons codec item _ none))
              (st.push item (some (codec.cursorOf item)) true) ⟨isOpen.size, isOpen.count⟩
            rw [fill_push] at pushed
            refine pushed.trans ?_
            simp [CursorState.push, responseLimits]

/-! ## A round -/

section
variable {codec : CursorCodec} {limit : Option Nat} {resolvedStartSeq : Int} {page : CursorPage}
  {st : CursorState}

/-- What the inner loop does with a page, from a state of the outer loop. -/
abbrev packPage (codec : CursorCodec) (limit : Option Nat) (resolvedStartSeq : Int)
    (page : CursorPage) (st : CursorState) : Packed LogEntrySync :=
  (responseLimits codec limit resolvedStartSeq).pack page.hasNextPage st.entries.length st.usedBytes
    page.items

theorem cursorRound_eq (some_ : page.items ≠ [])
    (ends : page.endCursor = lastCursor codec page.items none) (isOpen : st.Open) :
    cursorRound codec limit resolvedStartSeq page st = endRound page
      (st.fill codec page.hasNextPage (packPage codec limit resolvedStartSeq page st)) := by
  rw [cursorRound, if_neg (by simpa using some_),
    consumeItems_eq codec limit resolvedStartSeq page page.items some_ ends st isOpen]

/-- A limit was hit: the response is done. -/
theorem round_stopped (some_ : page.items ≠ [])
    (ends : page.endCursor = lastCursor codec page.items none) (isOpen : st.Open)
    (stopped : (packPage codec limit resolvedStartSeq page st).stop ≠ .ended) :
    cursorRound codec limit resolvedStartSeq page st =
      .done (st.fill codec page.hasNextPage (packPage codec limit resolvedStartSeq page st)) := by
  rw [cursorRound_eq some_ ends isOpen]
  cases stop : (packPage codec limit resolvedStartSeq page st).stop with
  | size => simp [endRound, CursorState.fill, stop]
  | count => simp [endRound, CursorState.fill, stop]
  | ended => exact absurd stop stopped

/-- The page was taken whole and is the last. -/
theorem round_last (some_ : page.items ≠ [])
    (ends : page.endCursor = lastCursor codec page.items none) (isOpen : st.Open)
    (ended : (packPage codec limit resolvedStartSeq page st).stop = .ended)
    (whole : (packPage codec limit resolvedStartSeq page st).rest = [])
    (last : page.hasNextPage = false) :
    cursorRound codec limit resolvedStartSeq page st =
      .done (st.fill codec page.hasNextPage (packPage codec limit resolvedStartSeq page st)) := by
  rw [cursorRound_eq some_ ends isOpen]
  simp [endRound, CursorState.fill, ended, whole, last]

/-- The page was taken whole and another follows. -/
theorem round_more (some_ : page.items ≠ [])
    (ends : page.endCursor = lastCursor codec page.items none) (isOpen : st.Open)
    (ended : (packPage codec limit resolvedStartSeq page st).stop = .ended)
    (follows : page.hasNextPage = true) :
    cursorRound codec limit resolvedStartSeq page st =
      .more { st.fill codec page.hasNextPage (packPage codec limit resolvedStartSeq page st) with
        nextCursor := page.endCursor } := by
  rw [cursorRound_eq some_ ends isOpen]
  have isLast := List.getLast?_eq_some_getLast some_
  simp [endRound, CursorState.fill, ended, follows, ends, lastCursor, isLast]

/-- The first item of the page does not fit with what was taken before: the response is done. -/
theorem round_over {first : LogEntrySync} (head : page.items.head? = some first)
    (ends : page.endCursor = lastCursor codec page.items none) (isOpen : st.Open)
    (follows : page.hasNextPage = true) (some_ : st.entries ≠ [])
    (tooLarge : maxBytes < st.usedBytes + first.entry.length +
      (responseLimits codec limit resolvedStartSeq).overhead first true) :
    ∃ st', cursorRound codec limit resolvedStartSeq page st = .done st' ∧
      st'.entries = st.entries := by
  obtain ⟨items, isPage⟩ := List.head?_eq_some_iff.mp head
  have someItem : page.items ≠ [] := isPage ▸ List.cons_ne_nil _ _
  have none_ : packPage codec limit resolvedStartSeq page st = ⟨[], page.items, .size⟩ := by
    rw [packPage, isPage]
    apply Limits.pack_over
    refine ⟨List.length_pos_of_ne_nil some_, ?_⟩
    rw [follows, Bool.or_true]
    exact tooLarge
  refine ⟨_, round_stopped someItem ends isOpen (by rw [none_]; nofun), ?_⟩
  rw [none_]
  exact List.append_nil _

section
variable {κ : Type} [LinearOrder κ] {collate : String ↪ κ} {db : Database}
  {payload : LogEntryPullPayload} {startTs : Int} {st' : CursorState}

/-- The loop is left after a round that is done. -/
theorem cursorLoop_done (rounds : Nat)
    (read : Storage.getPaginatedLogEntries collate codec db payload.teamId
      (timestampFilter payload startTs) st.nextCursor = some page)
    (done : cursorRound codec payload.limit resolvedStartSeq page st = .done st') :
    cursorLoop collate codec db payload startTs resolvedStartSeq (rounds + 1) st = some st' := by
  simp only [cursorLoop, read, done, Option.bind_eq_bind, Option.bind_some]

/-- The loop goes on after a round that is not. -/
theorem cursorLoop_more (rounds : Nat)
    (read : Storage.getPaginatedLogEntries collate codec db payload.teamId
      (timestampFilter payload startTs) st.nextCursor = some page)
    (more : cursorRound codec payload.limit resolvedStartSeq page st = .more st') :
    cursorLoop collate codec db payload startTs resolvedStartSeq (rounds + 1) st =
      cursorLoop collate codec db payload startTs resolvedStartSeq rounds st' := by
  simp only [cursorLoop, read, more, Option.bind_eq_bind, Option.bind_some]

end

/-- A page without items ends the response. -/
theorem round_empty (none_ : page.items = []) :
    cursorRound codec limit resolvedStartSeq page st = .done { st with hasNextPage := false } := by
  simp [cursorRound, none_]

/-! ## Following the cursor -/

section
variable {κ : Type} [LinearOrder κ] {collate : String ↪ κ} {db : Database}
  {payload : LogEntryPullPayload} {startTs : Int} {cursor : Option String} {call : Int × CursorState}

/-- A response is followed up if it says so. -/
theorem followCursor_succ
    (called : callByCursor collate codec db { payload with cursor := cursor } startTs = some call)
    (calls : Nat) :
    followCursor collate codec db payload startTs (calls + 1) cursor =
      if call.2.hasNextPage then
        (followCursor collate codec db payload startTs calls call.2.cursor).map (call :: ·)
      else some [call] := by
  rw [followCursor, called, Option.bind_eq_bind, Option.bind_some]
  cases followCursor collate codec db payload startTs calls call.2.cursor <;> rfl

/-- What a client that is done got: this response only, or those after it too. -/
theorem followed_cases {calls : Nat} {answered : List (Int × CursorState)}
    (called : callByCursor collate codec db { payload with cursor := cursor } startTs = some call)
    (followed : followCursor collate codec db payload startTs calls cursor = some answered) :
    call.2.hasNextPage = false ∧ answered = [call] ∨
      call.2.hasNextPage = true ∧ ∃ calls' later, calls = calls' + 1 ∧
        followCursor collate codec db payload startTs calls' call.2.cursor = some later ∧
        answered = call :: later := by
  cases calls with
  | zero => cases followed
  | succ calls =>
    rw [followCursor_succ called] at followed
    cases more : call.2.hasNextPage with
    | false =>
      rw [more] at followed
      cases followed
      exact .inl ⟨rfl, rfl⟩
    | true =>
      rw [more, if_pos rfl] at followed
      obtain ⟨later, followed', rfl⟩ := Option.map_eq_some_iff.mp followed
      exact .inr ⟨rfl, calls, later, rfl, followed', rfl⟩

/-- What a client gets does not depend on how many calls it may make. -/
theorem followCursor_unique {calls calls' : Nat} {answered answered' : List (Int × CursorState)}
    (followed : followCursor collate codec db payload startTs calls cursor = some answered)
    (followed' : followCursor collate codec db payload startTs calls' cursor = some answered') :
    answered = answered' := by
  induction calls generalizing calls' cursor answered answered' with
  | zero => cases followed
  | succ calls ih =>
    cases called : callByCursor collate codec db { payload with cursor := cursor } startTs with
    | none => simp [followCursor, called] at followed
    | some call =>
      rcases followed_cases called followed with ⟨done, rfl⟩ | ⟨more, _, later, same, follow, rfl⟩
      · rcases followed_cases called followed' with ⟨-, rfl⟩ | ⟨more, -⟩
        · rfl
        · rw [done] at more
          cases more
      · rcases followed_cases called followed' with ⟨done, -⟩ | ⟨-, _, later', -, follow', rfl⟩
        · rw [done] at more
          cases more
        · cases same
          rw [ih follow follow']

end

end

end QuietStorage.Sync
