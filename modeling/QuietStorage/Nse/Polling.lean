import QuietStorage.Lib.Interpret
import QuietStorage.Nse.Auth
import QuietStorage.Sync.Reader
import QuietStorage.Sync.Resolve

/-!
# Nse.Polling — extensions that keep asking for the log

Any number of notification extensions ask for the log of their teams with `getLogEntries`, again and
again, while writers commit. An extension goes on from the last number that it was given, or from the
number the server has resolved if it was given no entry; its number goes through the text of a query
and `parseInt` (`queryNumber_toString`).

**The read is not one statement.** The number of a first request may be resolved from a time, and the
log is read after another await; rows are committed in between. What the extension receives is a front
of what lies beyond the number in the log as it stands later (`Served`), and a front ends where the
next request begins.

The log is read from the primary, as it is where `POSTGRES_READ_REPLICA_HOSTS` is not set: of a replica
that lags an extension gets what has reached it. The numbers are exact.

The extensions are outside the repository: `Progress` is what a client has to keep to be served
exactly once. The programs run on the part of the world that `PollWorld.nse` gives, so `getLogEntries`
is the function of `Nse.Auth`.
-/

set_option autoImplicit false

namespace QuietStorage.Nse

open Lib Storage Sync

/-! ## The text of a number -/

/-- The digits of a number are read back. -/
theorem parseDigits_toDigits (n : Nat) :
    ((Nat.toDigits 10 n).takeWhile Char.isDigit).foldl (fun n c => n * 10 + (c.toNat - '0'.toNat)) 0
      = n := by
  have all : (Nat.toDigits 10 n).takeWhile Char.isDigit = Nat.toDigits 10 n :=
    List.takeWhile_eq_self_iff.mpr fun c mem => Nat.isDigit_of_mem_toDigits (by decide) (by decide) mem
  rw [all]
  have := Nat.ofDigitChars_ten_toDigits (n := n)
  rw [Nat.ofDigitChars_eq_foldl] at this
  simpa only [Nat.mul_comm] using this

theorem isWhiteSpace_of_isDigit {c : Char} (digit : c.isDigit = true) : isWhiteSpace c = false := by
  simp only [Char.isDigit, Bool.and_eq_true, decide_eq_true_eq, ge_iff_le] at digit
  obtain ⟨low, high⟩ := digit
  have apart : ∀ d : Char, (d.val < '0'.val ∨ '9'.val < d.val) → c ≠ d := by
    rintro d outside rfl
    rcases outside with below | above
    · exact absurd low (UInt32.not_le.mpr below)
    · exact absurd high (UInt32.not_le.mpr above)
  have notListed : ¬ 0x2000 ≤ c.val := by
    intro beyond
    exact absurd (UInt32.le_trans beyond high) (by decide)
  simp only [isWhiteSpace, Bool.or_eq_false_iff, Bool.and_eq_false_iff, decide_eq_false_iff_not]
  refine ⟨?_, .inl notListed⟩
  simp only [List.mem_cons, List.not_mem_nil, or_false, not_or]
  refine ⟨?_, ?_, ?_, ?_, ?_, ?_, ?_, ?_, ?_, ?_, ?_, ?_, ?_, ?_⟩ <;> exact apart _ (by decide)

/-- A number starts with a digit. -/
theorem toDigits_eq_cons (n : Nat) :
    ∃ c rest, Nat.toDigits 10 n = c :: rest ∧ c.isDigit = true := by
  obtain ⟨c, rest, isCons⟩ := List.exists_cons_of_ne_nil (Nat.toDigits_ne_nil (n := n) (b := 10))
  have mem : c ∈ Nat.toDigits 10 n := isCons ▸ List.mem_cons_self
  exact ⟨c, rest, isCons, Nat.isDigit_of_mem_toDigits (by decide) (by decide) mem⟩

/-- A number that was printed is read as the number. -/
theorem parseInt_toString {n : Int} (representable : JsNumber.Representable n) :
    parseInt (.string (toString n)) = .ok (some n) := by
  have isFold := parseDigits_toDigits n.natAbs
  obtain ⟨c, rest, isCons, digit⟩ := toDigits_eq_cons n.natAbs
  rw [isCons] at isFold
  have isDigits : ((c :: rest).takeWhile Char.isDigit).isEmpty = false := by
    rw [List.takeWhile_cons_of_pos digit]
    rfl
  cases n with
  | ofNat m =>
    have chars : (toString (Int.ofNat m)).toList = c :: rest := Nat.toList_repr.trans isCons
    have notSpace : (c :: rest).dropWhile isWhiteSpace = c :: rest :=
      List.dropWhile_cons_of_neg (by rw [isWhiteSpace_of_isDigit digit]; exact Bool.false_ne_true)
    unfold parseInt
    simp only [JsValue.text, bind, Except.bind]
    rw [chars, notSpace]
    split
    · next isCons' =>
      cases isCons'
      exact absurd digit (by decide)
    · next isCons' =>
      cases isCons'
      exact absurd digit (by decide)
    · simp only [isFold, isDigits]
      exact congrArg _ (congrArg some representable)
  | negSucc m =>
    have chars : (toString (Int.negSucc m)).toList = '-' :: c :: rest := by
      show ("-" ++ (m + 1).repr).toList = _
      rw [String.toList_append, Nat.toList_repr]
      exact congrArg _ isCons
    unfold parseInt
    simp only [JsValue.text, bind, Except.bind]
    rw [chars, List.dropWhile_cons_of_neg (by decide)]
    simp only [isFold, isDigits]
    exact congrArg _ (congrArg some representable)

/-- The number of a query is the number that was printed. -/
theorem queryNumber_toString {n : Int} (representable : JsNumber.Representable n) :
    queryNumber (.string (toString n)) = .ok (some n) := by
  have printed := parseInt_toString representable
  unfold queryNumber
  split
  · next empty =>
    have isEmpty : toString n = "" := eq_of_beq empty
    rw [isEmpty] at printed
    cases printed
  · exact printed
/-- A number that was read is one of the language. -/
theorem representable_of_parseInt {value : JsValue} {n : Int} (parsed : parseInt value = .ok (some n)) :
    JsNumber.Representable n := by
  have signed : ∀ (missing negative : Bool) (m : Int),
      (if missing = true then none
        else some (if negative = true then -JsNumber.ofInt m else JsNumber.ofInt m)) = some n →
      JsNumber.Representable n := by
    intro missing negative m isNumber
    cases missing with
    | true => cases isNumber
    | false =>
      cases negative with
      | true => exact Option.some.inj isNumber ▸ (JsNumber.representable_ofInt m).neg
      | false => exact Option.some.inj isNumber ▸ JsNumber.representable_ofInt m
  unfold parseInt at parsed
  cases isText : value.text with
  | error e =>
    rw [isText] at parsed
    cases parsed
  | ok text =>
    simp only [isText, bind, Except.bind] at parsed
    split at parsed <;> exact signed _ _ _ (Except.ok.inj parsed)

/-- The number of a query is a number of the language. -/
theorem representable_of_queryNumber {value : JsValue} {n : Int}
    (read : queryNumber value = .ok (some n)) : JsNumber.Representable n := by
  unfold queryNumber at read
  split at read
  · cases read
  · exact representable_of_parseInt read

/-! ## The system -/

/-- What an extension has: the number its first answer was resolved from, the number it has read up
to, and the entries it was given. No program reads `committed`, the rows that were there when the last
request that was answered was sent. -/
structure Progress where
  start : Int
  cursor : Int
  received : List NseLogEntry
  committed : List LogEntrySync

/-- The writers, and what the extensions have. -/
structure PollWorld where
  storage : Storage.State
  extensions : Nat → Option Progress

/-- A request: from where an extension asks that has nothing, a time, and what its token says. -/
structure Poll where
  afterSeq : JsValue
  since : JsValue
  user : TokenPayload

/-- The number to go on from after an answer. -/
def NseLogEntriesResponse.next (response : NseLogEntriesResponse) : Int :=
  (response.entries.getLast?.map (·.syncSeq)).getD response.resolvedAfterSeq

/-- The answer to a request that was sent when `committed` were the rows. -/
def Progress.receive (progress : Option Progress) (committed : List LogEntrySync)
    (response : NseLogEntriesResponse) : Progress where
  start := progress.elim response.resolvedAfterSeq (·.start)
  cursor := response.next
  received := progress.elim [] (·.received) ++ response.entries
  committed := committed

namespace PollWorld

/-- Nothing is under way, and no extension has anything. -/
def start (db : Database) : PollWorld where
  storage := .start db
  extensions := fun _ => none

/-- The world as the controller sees it. -/
def nse (w : PollWorld) : NseWorld Unit :=
  (NseState.fresh (fun _ => none) w.storage.db).world

def receive (w : PollWorld) (t : Nat) (committed : List LogEntrySync)
    (response : NseLogEntriesResponse) : PollWorld :=
  { w with
    extensions := Function.update w.extensions t
      (some (.receive (w.extensions t) committed response)) }

/-- `afterSeq` of the next request of an extension. -/
def afterSeq (w : PollWorld) (t : Nat) (call : Poll) : JsValue :=
  (w.extensions t).elim call.afterSeq fun progress => .string (toString progress.cursor)

end PollWorld

abbrev PollM := Async PollWorld NseCommand NseCommand.Answer NseError

/-- `getLogEntries`, on the server of the writers. -/
def serveLogEntries (teamId : TeamId) (afterSeq since : JsValue) (user : TokenPayload) :
    PollM NseLogEntriesResponse :=
  (getLogEntries teamId afterSeq since user).interpret PollWorld.nse (fun w _ => w) Async.send

/-- Extension `t` asks for the log of its team. -/
def Poll.program (team : Nat → TeamId) (t : Nat) (call : Poll) : PollM Unit := do
  let w ← Async.get
  let response ← serveLogEntries (team t) (w.afterSeq t call) call.since call.user
  Async.modify (·.receive t w.storage.db.logEntrySync.rows response)

/-- A command is answered as the server answers it. -/
def performPoll (w : PollWorld) (c : NseCommand) (choice : NseChoice) :
    Option (PollWorld × Except NseError c.Answer) :=
  (performNse w.nse c choice).map fun performed => (w, performed.2)

/-- The writers take a step. -/
def pollOutside (w : PollWorld) (a : Storage.Action) : Option PollWorld :=
  (Storage.step w.storage a).map fun storage => { w with storage := storage }

abbrev PollMove := Move Poll NseChoice Storage.Action

abbrev PollState := AsyncState PollWorld NseCommand NseCommand.Answer NseError

def pollStep (team : Nat → TeamId) (m : PollState) (move : PollMove) : Option PollState :=
  asyncStep (Poll.program team) performPoll pollOutside m move

/-! ## The log of a team -/

/-- The rows of a team, in the order of their numbers. -/
def teamLog (db : Database) (teamId : TeamId) : List LogEntrySync := log db teamId { startSeq := 0 }

/-- A row as the extension is given it. -/
def nseEntry (row : LogEntrySync) : NseLogEntry := toNseLogEntry (entityToPayload row)

section
variable {db : Database} {c : TeamId}

theorem ascending_teamLog (db : Database) (c : TeamId) : Cursor.Ascending seqOf (teamLog db c) :=
  ascending_log db c _

theorem mem_teamLog {row : LogEntrySync} : row ∈ teamLog db c ↔ row ∈ db.rowsOf c := by
  rw [teamLog, mem_log, Database.mem_rowsOf]
  simp [SyncSeqFilter.selects]

/-- The plain read is the log beyond its number. -/
theorem getLogEntriesForCommunity_eq {afterSeq : Int} {entries : List LogSyncEntry}
    (read : Storage.getLogEntriesForCommunity db c afterSeq = some entries) :
    entries = (Cursor.after seqOf afterSeq (teamLog db c)).map entityToPayload := by
  have isMatching := matching_eq_after db c { startSeq := afterSeq }
  unfold Storage.getLogEntriesForCommunity at read
  split at read
  · cases read
    refine congrArg _ (Eq.trans ?_ isMatching)
    rw [matching]
    congr 1
    refine List.filter_congr fun r _ => ?_
    simp [SyncSeqFilter.selects]
  · cases read

/-- A step of the writers makes the log of a team grow at its end. -/
theorem teamLog_step {s s' : Storage.State} {a : Storage.Action} (inv : Storage.Inv s)
    (taken : Storage.step s a = some s') (c : TeamId) : teamLog s.db c <+: teamLog s'.db c := by
  have moved : teamLog s'.db c = teamLog s.db c ∨
      ∃ row, teamLog s'.db c = teamLog s.db c ++ [row] ∧ ∀ r ∈ teamLog s.db c, seqOf r < seqOf row :=
    log_step inv (step_eq_some.mp taken) { teamId := c, userId := "" }
  rcases moved with same | ⟨row, grown, -⟩
  · exact same ▸ List.prefix_refl _
  · exact grown ▸ List.prefix_append _ _

end

/-! ## The invariant -/

/-- What an extension has, when `l` is the log of its team: the window from where it began to where it
stands, and every row that was there when it last asked lies behind it. -/
structure Follows (c : TeamId) (l : List LogEntrySync) (progress : Progress) : Prop where
  received : progress.received =
    (Cursor.window seqOf progress.start progress.cursor l).map nseEntry
  low : progress.start ≤ progress.cursor
  reached : Reached l progress.start progress.cursor
  representable : JsNumber.Representable progress.start
  committed : ∀ row ∈ progress.committed, row.communityId = c →
    row ∈ l ∧ seqOf row ≤ progress.cursor

theorem Follows.grown {c : TeamId} {l l' : List LogEntrySync} {progress : Progress}
    (follows : Follows c l progress) (isPrefix : l <+: l') (ascending : Cursor.Ascending seqOf l') :
    Follows c l' progress where
  received := by
    rw [Cursor.window_of_prefix isPrefix ascending follows.reached]
    exact follows.received
  low := follows.low
  reached := follows.reached.imp id fun ⟨row, mem, isCursor⟩ => ⟨row, isPrefix.subset mem, isCursor⟩
  representable := follows.representable
  committed := fun row mem community =>
    (follows.committed row mem community).imp (isPrefix.subset ·) id

/-- The number that an extension stands at is one of the language. -/
theorem Follows.representable_cursor {c : TeamId} {l : List LogEntrySync} {progress : Progress}
    (follows : Follows c l progress) (exact_ : Exact l) : JsNumber.Representable progress.cursor := by
  rcases follows.reached with same | ⟨row, mem, isCursor⟩
  · exact same ▸ follows.representable
  · exact isCursor ▸ exact_ row mem

/-- What an answer says, to a request with `afterSeq`, when `l` is the log as it stands: the entries
are what lay beyond the resolved number in a front of it that has the rows of `known`. -/
structure Served (known : List LogEntrySync) (l : List LogEntrySync) (afterSeq : JsValue)
    (response : NseLogEntriesResponse) : Prop where
  entries : ∃ l₁, known <+: l₁ ∧ l₁ <+: l ∧
    response.entries = (Cursor.after seqOf response.resolvedAfterSeq l₁).map nseEntry
  asked : ∀ n, queryNumber afterSeq = .ok (some n) → response.resolvedAfterSeq = n
  representable : JsNumber.Representable response.resolvedAfterSeq

/-- The number of an entry is that of its row. -/
theorem syncSeq_nseEntry {row : LogEntrySync} (isExact : JsNumber.Representable (seqOf row)) :
    (nseEntry row).syncSeq = seqOf row :=
  toSyncSeq_of_representable isExact

/-- An answer that nobody has cut ends at its last row, or where it began. -/
theorem Served.page {known l : List LogEntrySync} {afterSeq : JsValue}
    {response : NseLogEntriesResponse} (served : Served known l afterSeq response)
    (ascending : Cursor.Ascending seqOf l) (exact_ : Exact l) :
    response.entries =
        (Cursor.window seqOf response.resolvedAfterSeq response.next l).map nseEntry ∧
      response.resolvedAfterSeq ≤ response.next ∧
      Reached l response.resolvedAfterSeq response.next ∧
      ∀ row ∈ known, row ∈ l ∧ seqOf row ≤ response.next := by
  obtain ⟨l₁, isKnown, isFront, isAfter⟩ := served.entries
  have ascending₁ : Cursor.Ascending seqOf l₁ := ascending.sublist isFront.sublist
  cases ends : (Cursor.after seqOf response.resolvedAfterSeq l₁).getLast? with
  | none =>
    have nothing := List.getLast?_eq_none_iff.mp ends
    have noEntry : response.entries = [] := by
      rw [isAfter, nothing]
      rfl
    have next : response.next = response.resolvedAfterSeq := by
      rw [NseLogEntriesResponse.next, noEntry]
      rfl
    rw [next, Cursor.window_self]
    refine ⟨noEntry, le_rfl, .inl rfl, fun row mem => ⟨isFront.subset (isKnown.subset mem), ?_⟩⟩
    by_contra beyond
    have inAfter := Cursor.mem_after.mpr ⟨isKnown.subset mem, lt_of_not_ge beyond⟩
    rw [nothing] at inAfter
    cases inAfter
  | some last =>
    have lastMem := (Cursor.mem_after.mp (List.mem_of_getLast? ends)).1
    have next : response.next = seqOf last := by
      rw [NseLogEntriesResponse.next, isAfter, List.getLast?_map, ends]
      exact syncSeq_nseEntry (exact_ last (isFront.subset lastMem))
    obtain ⟨isWindow, nothing, beyond⟩ :=
      Cursor.page_eq_window ascending₁ (List.append_nil _).symm ends
    have reached : Reached l₁ response.resolvedAfterSeq (seqOf last) := .inr ⟨last, lastMem, rfl⟩
    rw [next, Cursor.window_of_prefix isFront ascending reached, ← isWindow]
    refine ⟨isAfter, le_of_lt beyond, .inr ⟨last, isFront.subset lastMem, rfl⟩, ?_⟩
    intro row mem
    refine ⟨isFront.subset (isKnown.subset mem), ?_⟩
    by_contra further
    have inAfter := Cursor.mem_after.mpr ⟨isKnown.subset mem, lt_of_not_ge further⟩
    rw [← nothing] at inAfter
    cases inAfter

/-- **An answer takes an extension on**, when its request went on from where it stood. -/
theorem follows_receive {c : TeamId} {known l committed : List LogEntrySync} {afterSeq : JsValue}
    {progress : Option Progress} {response : NseLogEntriesResponse}
    (served : Served known l afterSeq response) (ascending : Cursor.Ascending seqOf l)
    (exact_ : Exact l) (follows : ∀ p, progress = some p → Follows c l p)
    (goesOn : ∀ p, progress = some p → afterSeq = .string (toString p.cursor))
    (isKnown : ∀ row ∈ committed, row.communityId = c → row ∈ known) :
    Follows c l (.receive progress committed response) := by
  obtain ⟨entries, low, reached, past⟩ := served.page ascending exact_
  have committed_ : ∀ row ∈ committed, row.communityId = c → row ∈ l ∧ seqOf row ≤ response.next :=
    fun row mem community => past row (isKnown row mem community)
  cases progress with
  | none => exact ⟨entries, low, reached, served.representable, committed_⟩
  | some p =>
    have follows := follows p rfl
    have resumes : response.resolvedAfterSeq = p.cursor := by
      refine served.asked p.cursor ?_
      rw [goesOn p rfl]
      exact queryNumber_toString (follows.representable_cursor exact_)
    rw [resumes] at entries low reached
    refine ⟨?_, follows.low.trans low, ?_, follows.representable, committed_⟩
    · show p.received ++ response.entries = _
      rw [follows.received, entries, ← List.map_append,
        Cursor.window_append ascending follows.low low]
      rfl
    · rcases reached with same | further
      · exact follows.reached.imp same.trans fun ⟨row, mem, isCursor⟩ => ⟨row, mem, isCursor.trans same.symm⟩
      · exact .inr further

/-! ## Every run -/

variable (team : Nat → TeamId)

/-- Every extension has followed the log of its team, if its numbers are exact. -/
structure PollInv (w : PollWorld) : Prop where
  storage : Storage.Inv w.storage
  follows : ∀ t p, w.extensions t = some p → Exact (teamLog w.storage.db (team t)) →
    Follows (team t) (teamLog w.storage.db (team t)) p

/-- The logs grow at their ends. -/
def PollWorld.Grows (w w' : PollWorld) : Prop :=
  ∀ c, teamLog w.storage.db c <+: teamLog w'.storage.db c

/-- What a request relies on: the extension is nobody else's. -/
def pollDiscipline : Discipline PollWorld where
  Inv := PollInv team
  Grows := PollWorld.Grows
  Keeps := fun t w w' => w'.extensions t = w.extensions t
  Idle := fun _ _ => True
  refl := fun _ _ => List.prefix_refl _
  trans := fun first second c => (first c).trans (second c)
  keeps_refl := fun _ _ => rfl
  keeps_trans := fun first second => second.trans first
  idle_keeps := fun _ _ => trivial

variable {team} {t : Nat} {w : PollWorld}

/-- The numbers of a log were exact before it grew. -/
theorem exact_of_front {l l' : List LogEntrySync} (front : l <+: l') (exact_ : Exact l') : Exact l :=
  fun row mem => exact_ row (front.subset mem)

/-- A query is answered by one state of the log, and the extension is left as it is. -/
theorem pollQuery_meets (c : NseCommand) :
    Meets (pollDiscipline team) t performPoll
      (fun w' r => w'.extensions t = w.extensions t ∧ ∃ w₁ choice, w.Grows w₁ ∧ w₁.Grows w' ∧
        performPoll w₁ c choice = some (w₁, r))
      (Async.send c) w := by
  refine meets_send fun w₁ rely inv choice w₂ r performed => ?_
  have same : w₂ = w₁ := by
    obtain ⟨_, -, isPair⟩ := Option.map_eq_some_iff.mp performed
    exact (congrArg Prod.fst isPair).symm
  subst same
  refine ⟨inv, .refl t w₂, fun w₃ rely₃ _ => ⟨rely₃.keeps.trans rely.keeps, w₂, choice, rely.grows, rely₃.grows, performed⟩⟩

/-- A command to the database is answered by its query, or fails. -/
theorem performPoll_resolve {w₁ w₂ : PollWorld} {c : TeamId} {timestamp : Int} {choice : NseChoice}
    {r : Except NseError Int}
    (performed : performPoll w₁ (.resolveSyncSeqForTimestamp c timestamp) choice = some (w₂, r)) :
    r = queried (resolveTimestamp w₁.storage.db c timestamp) ∨ ∃ e, r = .error e := by
  obtain ⟨pair, answered, isPair⟩ := Option.map_eq_some_iff.mp performed
  cases choice with
  | returned =>
    have isAnswer : performNse w₁.nse (.resolveSyncSeqForTimestamp c timestamp) .returned =
        some (w₁.nse, queried (resolveTimestamp w₁.storage.db c timestamp)) := rfl
    rw [isAnswer] at answered
    generalize queried (resolveTimestamp w₁.storage.db c timestamp) = answer at answered
    obtain rfl := Option.some.inj answered
    exact .inl (congrArg Prod.snd isPair).symm
  | fails e =>
    obtain rfl := Option.some.inj answered
    exact .inr ⟨e, (congrArg Prod.snd isPair).symm⟩
  | signed token => cases answered
  | verified i => cases answered

theorem performPoll_read {w₁ w₂ : PollWorld} {c : TeamId} {n : Int} {choice : NseChoice}
    {r : Except NseError (List LogSyncEntry)}
    (performed : performPoll w₁ (.getLogEntriesForCommunity c n) choice = some (w₂, r)) :
    r = queried (Storage.getLogEntriesForCommunity w₁.storage.db c n) ∨ ∃ e, r = .error e := by
  obtain ⟨pair, answered, isPair⟩ := Option.map_eq_some_iff.mp performed
  cases choice with
  | returned =>
    obtain rfl := Option.some.inj answered
    exact .inl (congrArg Prod.snd isPair).symm
  | fails e =>
    obtain rfl := Option.some.inj answered
    exact .inr ⟨e, (congrArg Prod.snd isPair).symm⟩
  | signed token => cases answered
  | verified i => cases answered

/-- An answer without an error is that of the query. -/
theorem queried_of_ok {α : Type} {answer : Option α} {r : Except NseError α} {a : α}
    (answered : r = queried answer ∨ ∃ e, r = .error e) (isOk : r = .ok a) : answer = some a := by
  rcases answered with rfl | ⟨e, rfl⟩
  · cases answer with
    | none => cases isOk
    | some b => exact congrArg some (Except.ok.inj isOk)
  · cases isOk

/-- A number that a time resolves to is one of the language. -/
theorem representable_of_resolved {db : Database} {c : TeamId} {timestamp n : Int}
    (resolved : resolveTimestamp db c timestamp = some n) : JsNumber.Representable n := by
  unfold resolveTimestamp at resolved
  split at resolved
  · rcases resolve_spec resolved with rfl | ⟨row, -, -, rfl⟩
    · decide
    · exact JsNumber.representable_ofInt _
  · cases resolved
    decide

/-- The number that is resolved is the one that was asked for, if one was. -/
structure ResolvedTo (asked : Option Int) (n : Int) : Prop where
  asked : ∀ m, asked = some m → n = m
  representable : JsNumber.Representable n

theorem resolvedTo_meets (inv : PollInv team w) (c : TeamId) {afterSeqNum : Option Int}
    (sinceMs : Option Int) (representable : ∀ n, afterSeqNum = some n → JsNumber.Representable n) :
    Meets (pollDiscipline team) t performPoll
      (fun w' r => w'.extensions t = w.extensions t ∧
        ∀ n, r = .ok n → ResolvedTo afterSeqNum n)
      ((resolveAfterSeq c afterSeqNum sinceMs).interpret PollWorld.nse (fun w _ => w) Async.send)
      w := by
  cases afterSeqNum with
  | some n =>
    refine ⟨rfl, ?_⟩
    rintro _ ⟨⟩
    exact ⟨fun m isSome => Option.some.inj isSome, representable n rfl⟩
  | none =>
    refine meets_interpret_send ((pollQuery_meets _).imp inv ?_)
    rintro w' r - - ⟨same, w₁, choice, -, -, performed⟩
    refine ⟨same, fun n isOk => ⟨fun m none_ => (by cases none_), ?_⟩⟩
    exact representable_of_resolved (queried_of_ok (performPoll_resolve performed) isOk)

/-- A log that was read is the one beyond the number, as it stood then. -/
theorem plainRead_meets (inv : PollInv team w) (c : TeamId) (n : Int) :
    Meets (pollDiscipline team) t performPoll
      (fun w' r => w'.extensions t = w.extensions t ∧ ∀ entries, r = .ok entries →
        ∃ l₁, teamLog w.storage.db c <+: l₁ ∧ l₁ <+: teamLog w'.storage.db c ∧
          entries = (Cursor.after seqOf n l₁).map entityToPayload)
      (Async.send (NseCommand.getLogEntriesForCommunity c n)) w := by
  refine (pollQuery_meets _).imp inv ?_
  rintro w' r - - ⟨same, w₁, choice, before, later, performed⟩
  refine ⟨same, fun entries isOk => ⟨teamLog w₁.storage.db c, before c, later c, ?_⟩⟩
  exact getLogEntriesForCommunity_eq (queried_of_ok (performPoll_read performed) isOk)

/-- **What `getLogEntries` answers**, whatever is committed at its awaits. -/
theorem serveLogEntries_meets (inv : PollInv team w) (c : TeamId) (afterSeq since : JsValue)
    (user : TokenPayload) :
    Meets (pollDiscipline team) t performPoll
      (fun w' r => w'.extensions t = w.extensions t ∧ ∀ response, r = .ok response →
        Served (teamLog w.storage.db c) (teamLog w'.storage.db c) afterSeq response)
      (serveLogEntries c afterSeq since user) w := by
  have refused : ∀ {w' : PollWorld} {e : NseError}, w'.extensions t = w.extensions t →
      w'.extensions t = w.extensions t ∧
        ∀ response, (.error e : Except NseError NseLogEntriesResponse) = .ok response →
          Served (teamLog w.storage.db c) (teamLog w'.storage.db c) afterSeq response :=
    fun same => ⟨same, fun _ isOk => by cases isOk⟩
  unfold serveLogEntries getLogEntries
  split
  · exact refused rfl
  · refine meets_interpret_ofExcept_bind ?_ fun e _ => refused rfl
    intro afterSeqNum isNumber
    refine meets_interpret_ofExcept_bind ?_ fun e _ => refused rfl
    intro sinceMs _
    have isQuery : queryNumber afterSeq = .ok afterSeqNum := by
      cases read : queryNumber afterSeq with
      | error e =>
        rw [read] at isNumber
        cases isNumber
      | ok n =>
        rw [read] at isNumber
        cases isNumber
        rfl
    have representable : ∀ n, afterSeqNum = some n → JsNumber.Representable n := by
      rintro n rfl
      exact representable_of_queryNumber isQuery
    refine meets_interpret_bind inv (resolvedTo_meets inv c sinceMs representable) ?_
      fun w' e _ _ held => refused held.1
    rintro w₁ resolvedAfterSeq inv₁ grown₁ ⟨same₁, resolved⟩
    have resolved := resolved _ rfl
    refine meets_interpret_bind inv₁ (meets_interpret_send (plainRead_meets inv₁ c _)) ?_
      fun w' e _ _ held => refused (held.1.trans same₁)
    rintro w₂ entries inv₂ grown₂ ⟨same₂, read⟩
    obtain ⟨l₁, before, later, isAfter⟩ := read entries rfl
    refine ⟨same₂.trans same₁, ?_⟩
    rintro _ ⟨⟩
    refine ⟨⟨l₁, (grown₁ c).trans before, later, ?_⟩, ?_, resolved.representable⟩
    · rw [isAfter, List.map_map]
      rfl
    · intro n isSome
      rw [isQuery] at isSome
      cases isSome
      exact resolved.asked n rfl

/-- **A poll keeps the invariant**, at whatever moments it reads. -/
theorem poll_finishes (inv : PollInv team w) (call : Poll) :
    Finishes (pollDiscipline team) performPoll t (call.program team t) w := by
  refine meets_get_bind inv ?_
  refine meets_bind inv (serveLogEntries_meets inv (team t) _ call.since call.user) ?_
    fun _ _ _ _ _ => trivial
  rintro w' response inv' grown ⟨same, served⟩
  have served := served response rfl
  have others : ∀ t', t' ≠ t →
      (w'.receive t w.storage.db.logEntrySync.rows response).extensions t' = w'.extensions t' :=
    fun t' other => Function.update_of_ne other ..
  refine meets_modify ⟨inv'.storage, ?_⟩ ⟨fun _ => List.prefix_refl _, others⟩ trivial
  intro t' p isProgress exact_
  by_cases own : t' = t
  · subst own
    have isProgress : some (Progress.receive (w'.extensions t') w.storage.db.logEntrySync.rows response)
        = some p := (Function.update_self t' _ w'.extensions).symm.trans isProgress
    cases isProgress
    refine follows_receive served (ascending_teamLog _ _) exact_ ?_ ?_ ?_
    · exact fun p isProgress => inv'.follows t' p isProgress exact_
    · intro p isProgress
      rw [same] at isProgress
      rw [PollWorld.afterSeq, isProgress]
      rfl
    · exact fun row mem community => mem_teamLog.mpr (Database.mem_rowsOf.mpr ⟨mem, community⟩)
  · rw [others t' own] at isProgress
    exact inv'.follows t' p isProgress exact_

/-- The writers leave the extensions as they are. -/
theorem pollOutside_keeps {a : Storage.Action} {w' : PollWorld} (inv : PollInv team w)
    (moved : pollOutside w a = some w') :
    PollInv team w' ∧ w.Grows w' ∧ ∀ t, w'.extensions t = w.extensions t := by
  obtain ⟨storage, stepped, rfl⟩ := Option.map_eq_some_iff.mp moved
  have grown : ∀ c, teamLog w.storage.db c <+: teamLog storage.db c :=
    teamLog_step inv.storage stepped
  refine ⟨⟨inv_step inv.storage (step_eq_some.mp stepped), ?_⟩, grown, fun _ => rfl⟩
  intro t p isProgress exact_
  have exactBefore := exact_of_front (grown (team t)) exact_
  exact (inv.follows t p isProgress exactBefore).grown (grown (team t)) (ascending_teamLog _ _)

/-- The run lemma. -/
theorem pollInv_run {db : Database} {moves : List PollMove} {m : PollState}
    (ran : run (pollStep team) (.start (.start db)) moves = some m) : PollInv team m.world := by
  have safe : Safe (pollDiscipline team) performPoll m := by
    refine run_keeps (P := Safe (pollDiscipline team) performPoll) ?_ ?_ ran
    · intro m move m' safe taken
      refine (safe_step (S := fun _ _ _ => True) ?_ ?_ safe (fun _ _ _ => trivial) taken).1
      · exact fun t call w inv _ _ => poll_finishes inv call
      · exact fun w a w' inv moved => pollOutside_keeps inv moved
    · refine safe_start ⟨inv_start db, ?_⟩ fun _ => trivial
      intro t p none_
      cases none_
  exact safe.inv

/-- What an extension of a team has, on a database: each entry between where it began and where it
stands, once and in order, and each one beyond its start that was there when it last asked. -/
structure ServedExactlyOnce (db : Database) (teamId : TeamId) (progress : Progress) : Prop where
  received : progress.received =
    ((orderBySyncSeq (db.rowsOf teamId)).filter fun r =>
      decide (progress.start < seqOf r ∧ seqOf r ≤ progress.cursor)).map nseEntry
  complete : ∀ row ∈ progress.committed, row.communityId = teamId → progress.start < seqOf row →
    nseEntry row ∈ progress.received

/-- **Extensions are served exactly once.** In every run of any number of extensions and writers, with
any answers of the database and any refusals in between, each extension has received every entry of
its team between the number it began from and the one it stands at, in order and once; and none is
missing that was committed before its last answered request. -/
theorem polls_exactly_once (team : Nat → TeamId) (db : Database) (moves : List PollMove)
    (m : PollState) (ran : run (pollStep team) (.start (.start db)) moves = some m) (t : Nat)
    (p : Progress) (isProgress : m.world.extensions t = some p)
    (exact_ : Exact (m.world.storage.db.rowsOf (team t))) :
    ServedExactlyOnce m.world.storage.db (team t) p := by
  have exactLog : Exact (teamLog m.world.storage.db (team t)) :=
    fun row mem => exact_ row (mem_teamLog.mp mem)
  have follows := (pollInv_run ran).follows t p isProgress exactLog
  have isLog : orderBySyncSeq (m.world.storage.db.rowsOf (team t)) =
      teamLog m.world.storage.db (team t) := by
    rw [teamLog, log, Database.rowsOf]
    congr 1
    refine List.filter_congr fun r _ => ?_
    simp [SyncSeqFilter.selects]
  refine ⟨by rw [isLog]; exact follows.received, ?_⟩
  intro row mem community beyond
  obtain ⟨inLog, within⟩ := follows.committed row mem community
  rw [follows.received]
  exact List.mem_map_of_mem (Cursor.mem_window.mpr ⟨inLog, beyond, within⟩)

/-- A request from the beginning, with a token of the team. -/
def fromBeginning : Poll where
  afterSeq := .string "0"
  since := .undefined
  user := { deviceId := .string "device", teamId := .string "team" }

/-- A row is committed while the first request waits, and the second one brings it. -/
def pollTwice : List PollMove :=
  [.outside (.submit 0 (payloadNamed "a") 0), .outside (.allocate 0), .outside (.insert 0),
    .start 0 fromBeginning, .perform 0 .returned, .outside (.submit 1 (payloadNamed "b") 0),
    .outside (.allocate 1), .outside (.insert 1), .resume 0, .start 0 fromBeginning,
    .perform 0 .returned, .resume 0]

theorem polls_exactly_once_overlapping :
    ∃ m p, run (pollStep fun _ => "team") (.start (.start .empty)) pollTwice = some m ∧
      m.world.extensions 0 = some p ∧ p.received.length = 2 ∧
      ServedExactlyOnce m.world.storage.db "team" p := by
  have received : (run (pollStep fun _ => "team") (.start (.start .empty)) pollTwice).any (fun m =>
      (m.world.extensions 0).any fun p => decide (p.received.length = 2) &&
        decide (Exact (m.world.storage.db.rowsOf "team"))) = true := by decide +kernel
  obtain ⟨m, ran, received⟩ := (Option.any_eq_true _ _).mp received
  obtain ⟨p, isProgress, two⟩ := (Option.any_eq_true _ _).mp received
  obtain ⟨two, exact_⟩ := Bool.and_eq_true_iff.mp two
  exact ⟨m, p, ran, isProgress, of_decide_eq_true two,
    polls_exactly_once (fun _ => "team") .empty pollTwice m ran 0 p isProgress
      (of_decide_eq_true exact_)⟩

end QuietStorage.Nse
