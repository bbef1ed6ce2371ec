import Mathlib.Data.List.Infix
import QuietStorage.Lib.JsValue
import QuietStorage.Lib.Worklist
import QuietStorage.Storage.Table

/-!
# Storage.DuplicateError — telling a duplicate entry from every other failure

`isDuplicateLogEntryIdError` walks an error and what it wraps (`cause`, `driverException`,
`originalError`) with a worklist and a visited set, and answers whether some object on the way is a
violation of the primary key of `log_entry_sync`. The objects are a list and a link is a position
in it, so sharing and cycles are both there.

The loop is bounded by the number of objects: a position is expanded once, with three links, so
`3 * objects.length + 2` turns empty the worklist.

**What is proved.** The loop is the search of `Lib.Worklist`. What is thrown may be anything, and so may
its fields; a `message` that is not a string need not have an `includes`, and then the classifier
throws itself. The answer is exact, in whatever order the links are visited, exactly if no such
object is met (`isDuplicateLogEntryIdError_exact_iff`).
-/

set_option autoImplicit false

namespace QuietStorage.Storage

open Lib

/-- `LOG_ENTRY_SYNC_PRIMARY_KEY`. -/
def LOG_ENTRY_SYNC_PRIMARY_KEY : String := "log_entry_sync_pkey"

/-- `text.includes(part)`. -/
def includes (text part : String) : Bool := decide (part.toList <:+: text.toList)

/-- What a field of a thrown object holds. -/
inductive ErrorField where
  | nullish
  | string (text : String)
  /-- Neither: whether its `includes` returns `true`, and `none` where calling it throws, as it does of
  a number. -/
  | other (includes : String → Option Bool)

/-- `field === text`. -/
def ErrorField.is : ErrorField → String → Bool
  | .string text, text' => text == text'
  | _, _ => false

/-- `field?.includes(part) === true`. -/
def ErrorField.includes : ErrorField → String → Except TypeError Bool
  | .nullish, _ => .ok false
  | .string text, part => .ok (Storage.includes text part)
  | .other included, part =>
    match included part with
    | some found => .ok found
    | none => .error .typeError

/-- An error object, by the fields the classifier reads. A link that is absent or leads to
something that is no object is `none`. -/
structure ErrorWithDriverCode where
  /-- `error instanceof UniqueConstraintViolationException`. -/
  instanceOfUniqueConstraintViolationException : Bool := false
  cause : Option Nat := none
  code : ErrorField := .nullish
  constraint : ErrorField := .nullish
  detail : ErrorField := .nullish
  driverException : Option Nat := none
  message : ErrorField := .nullish
  name : ErrorField := .nullish
  originalError : Option Nat := none
  sqlState : ErrorField := .nullish

def isUniqueConstraintViolation (error : ErrorWithDriverCode) : Bool :=
  error.instanceOfUniqueConstraintViolationException ||
  error.name.is "UniqueConstraintViolationException" ||
  error.code.is "23505" ||
  error.sqlState.is "23505"

def isLogEntrySyncPrimaryKeyViolation (error : ErrorWithDriverCode) : Except TypeError Bool := do
  if error.constraint.is LOG_ENTRY_SYNC_PRIMARY_KEY then pure true
  else if ← error.message.includes LOG_ENTRY_SYNC_PRIMARY_KEY then pure true
  else error.detail.includes "Key (id)="

/-- The test on one object. -/
def isDuplicate (driverError : ErrorWithDriverCode) : Except TypeError Bool :=
  if isUniqueConstraintViolation driverError then isLogEntrySyncPrimaryKeyViolation driverError
  else .ok false

/-- The loop of `isDuplicateLogEntryIdError`, `none` if the turns do not do: `pending.pop()` takes what
was pushed last. -/
def searchDuplicate (objects : List ErrorWithDriverCode) :
    Nat → List (Option Nat) → List Nat → Option (Except TypeError Bool)
  | 0, _, _ => none
  | _ + 1, [], _ => some (.ok false)
  | turns + 1, none :: pending, visited => searchDuplicate objects turns pending visited
  | turns + 1, some current :: pending, visited =>
    match objects[current]? with
    | none => searchDuplicate objects turns pending visited
    | some driverError =>
      if current ∈ visited then
        searchDuplicate objects turns pending visited
      else
        match isDuplicate driverError with
        | .error e => some (.error e)
        | .ok true => some (.ok true)
        | .ok false =>
          searchDuplicate objects turns
            (driverError.originalError :: driverError.driverException :: driverError.cause ::
              pending)
            (current :: visited)

/-- `isDuplicateLogEntryIdError(error)`. -/
def isDuplicateLogEntryIdError (objects : List ErrorWithDriverCode) (error : Option Nat) :
    Option (Except TypeError Bool) :=
  searchDuplicate objects (3 * objects.length + 2) [error] []

/-! ## Exactness -/

/-- An object as a node of the search. -/
def ErrorWithDriverCode.node (driverError : ErrorWithDriverCode) : WorkNode Nat TypeError where
  verdict := isDuplicate driverError
  links := [driverError.cause, driverError.driverException, driverError.originalError]

/-- The objects as the nodes of the search. -/
def errorNode (objects : List ErrorWithDriverCode) (r : Nat) : Option (WorkNode Nat TypeError) :=
  objects[r]?.map ErrorWithDriverCode.node

/-- The same loop, with what is pending taken in another order. -/
def isDuplicateLogEntryIdErrorIn (order : WorkOrder Nat) (objects : List ErrorWithDriverCode)
    (error : Option Nat) : Option (Except TypeError Bool) :=
  search (errorNode objects) order (3 * objects.length + 2) [error] []

/-- The loop is the search that takes what was pushed last. -/
theorem searchDuplicate_eq_search (objects : List ErrorWithDriverCode) (turns : Nat)
    (pending : List (Option Nat)) (visited : List Nat) :
    searchDuplicate objects turns pending visited =
      search (errorNode objects) .lifo turns pending visited := by
  fun_induction searchDuplicate objects turns pending visited with
  | case1 => rfl
  | case2 => rfl
  | case3 visited turns pending ih => exact ih
  | case4 visited turns current pending absent ih =>
    simpa [search, WorkOrder.lifo, takeUp, errorNode, absent] using ih
  | case5 visited turns current pending driverError present again ih =>
    simpa [search, WorkOrder.lifo, takeUp, errorNode, present, again] using ih
  | case6 visited turns current pending driverError present fresh e throws =>
    simp [search, WorkOrder.lifo, takeUp, errorNode, ErrorWithDriverCode.node, present, fresh, throws]
  | case7 visited turns current pending driverError present fresh passes =>
    simp [search, WorkOrder.lifo, takeUp, errorNode, ErrorWithDriverCode.node, present, fresh, passes]
  | case8 visited turns current pending driverError present fresh fails ih =>
    simpa [search, WorkOrder.lifo, takeUp, errorNode, ErrorWithDriverCode.node, present, fresh, fails]
      using ih

/-- The object is itself a violation of the primary key of `log_entry_sync`: by its constraint, by
its message or by its detail. -/
def ViolatesPrimaryKey (error : ErrorWithDriverCode) : Prop :=
  error.constraint.is LOG_ENTRY_SYNC_PRIMARY_KEY = true ∨
    error.message.includes LOG_ENTRY_SYNC_PRIMARY_KEY = .ok true ∨
    error.detail.includes "Key (id)=" = .ok true

/-- The object is by itself both a violation of a unique constraint and one of the primary key. -/
def IsDuplicate (error : ErrorWithDriverCode) : Prop :=
  isUniqueConstraintViolation error = true ∧ ViolatesPrimaryKey error

/-- Wherever the test does not throw, it tells the duplicates from the others. -/
theorem isDuplicate_ok {error : ErrorWithDriverCode} {found : Bool}
    (asked : isDuplicate error = .ok found) : found = true ↔ IsDuplicate error := by
  rw [isDuplicate] at asked
  rw [IsDuplicate, ViolatesPrimaryKey]
  cases unique : isUniqueConstraintViolation error with
  | false =>
    rw [unique] at asked
    cases asked
    simp
  | true =>
    rw [unique, if_pos rfl, isLogEntrySyncPrimaryKeyViolation] at asked
    cases named : error.constraint.is LOG_ENTRY_SYNC_PRIMARY_KEY with
    | true =>
      rw [named] at asked
      cases asked
      simp
    | false =>
      cases told : error.message.includes LOG_ENTRY_SYNC_PRIMARY_KEY with
      | error e => simp [named, told, bind, Except.bind] at asked
      | ok inMessage =>
        cases inMessage with
        | true =>
          simp [named, told, bind, Except.bind, pure, Except.pure] at asked
          simp [← asked]
        | false =>
          simp [named, told, bind, Except.bind] at asked
          simp [asked]

/-- The answer comes, and says whether a duplicate can be reached from the argument. -/
def ExactAnswer (objects : List ErrorWithDriverCode) (error : Option Nat)
    (answer : Option (Except TypeError Bool)) : Prop :=
  ∃ duplicate : Bool, answer = some (.ok duplicate) ∧
    (duplicate = true ↔ ∃ r driverError, ReachedFrom (errorNode objects) error r ∧
      objects[r]? = some driverError ∧ IsDuplicate driverError)

theorem errorNode_eq_some {objects : List ErrorWithDriverCode} {r : Nat}
    {node : WorkNode Nat TypeError} :
    errorNode objects r = some node ↔
      ∃ driverError, objects[r]? = some driverError ∧ driverError.node = node :=
  Option.map_eq_some_iff

/-- The turns do, in every order. -/
theorem isDuplicateLogEntryIdErrorIn_ends {order : WorkOrder Nat} (permutes : order.Permutes)
    (objects : List ErrorWithDriverCode) (error : Option Nat) :
    ∃ answer, isDuplicateLogEntryIdErrorIn order objects error = some answer := by
  refine search_ends permutes (Finset.range objects.length) 3 ?_ ?_ _ _ _ ?_
  · intro r node found
    obtain ⟨driverError, present, -⟩ := errorNode_eq_some.mp found
    exact Finset.mem_range.mpr (List.getElem?_eq_some_iff.mp present).1
  · intro r node found
    obtain ⟨driverError, -, rfl⟩ := errorNode_eq_some.mp found
    exact le_rfl
  · simp
    omega

/-- In every order the answer is exact, if every object that is met can be asked. -/
theorem exactAnswer_of_asked {objects : List ErrorWithDriverCode} {error : Option Nat}
    (asked : ∀ r driverError, OpenTo (errorNode objects) error r → objects[r]? = some driverError →
      isDuplicate driverError ≠ .error .typeError)
    {order : WorkOrder Nat} (permutes : order.Permutes) :
    ExactAnswer objects error (isDuplicateLogEntryIdErrorIn order objects error) := by
  have calm : ∀ r e, OpenTo (errorNode objects) error r →
      ¬ Tests (errorNode objects) r (.error e) := by
    rintro r ⟨⟩ opened ⟨node, found, throws⟩
    obtain ⟨driverError, present, rfl⟩ := errorNode_eq_some.mp found
    exact asked r driverError opened present throws
  have passes : ∀ r, Tests (errorNode objects) r (.ok true) →
      ∃ driverError, objects[r]? = some driverError ∧ IsDuplicate driverError := by
    rintro r ⟨node, found, verdict⟩
    obtain ⟨driverError, present, rfl⟩ := errorNode_eq_some.mp found
    exact ⟨driverError, present, (isDuplicate_ok verdict).mp rfl⟩
  have fails : ∀ r, Tests (errorNode objects) r (.ok false) →
      ¬ ∃ driverError, objects[r]? = some driverError ∧ IsDuplicate driverError := by
    rintro r ⟨node, found, verdict⟩ ⟨driverError, present, violates⟩
    obtain ⟨driverError', present', rfl⟩ := errorNode_eq_some.mp found
    cases present.symm.trans present'
    exact Bool.false_ne_true ((isDuplicate_ok verdict).mpr violates)
  have isNode : ∀ r, (∃ driverError, objects[r]? = some driverError ∧ IsDuplicate driverError) →
      ∃ node, errorNode objects r = some node := by
    rintro r ⟨driverError, present, -⟩
    exact ⟨driverError.node, errorNode_eq_some.mpr ⟨driverError, present, rfl⟩⟩
  obtain ⟨answer, ended⟩ := isDuplicateLogEntryIdErrorIn_ends permutes objects error
  obtain ⟨duplicate, rfl, exact_⟩ := search_exact permutes _ calm isNode passes fails ended
  refine ⟨duplicate, ended, exact_.trans ⟨?_, ?_⟩⟩
  · rintro ⟨r, reached, driverError, present, violates⟩
    exact ⟨r, driverError, reached, present, violates⟩
  · rintro ⟨r, driverError, reached, present, violates⟩
    exact ⟨r, reached, driverError, present, violates⟩

/-- **The classifier is exact, in whatever order it visits the links, exactly if every object that it
reaches through objects that are no duplicates can be asked.** -/
theorem isDuplicateLogEntryIdError_exact_iff (objects : List ErrorWithDriverCode)
    (error : Option Nat) :
    (ExactAnswer objects error (isDuplicateLogEntryIdError objects error) ∧
      ∀ order : WorkOrder Nat, order.Permutes →
        ExactAnswer objects error (isDuplicateLogEntryIdErrorIn order objects error)) ↔
    ∀ r driverError, OpenTo (errorNode objects) error r → objects[r]? = some driverError →
      isDuplicate driverError ≠ .error .typeError := by
  have source : isDuplicateLogEntryIdError objects error =
      isDuplicateLogEntryIdErrorIn .lifo objects error := searchDuplicate_eq_search objects _ _ _
  constructor
  · rintro ⟨-, everyOrder⟩ r driverError opened present throws
    obtain ⟨order, permutes, only⟩ := exists_order_error opened
      ⟨driverError.node, errorNode_eq_some.mpr ⟨driverError, present, rfl⟩, throws⟩
    obtain ⟨duplicate, answered, -⟩ := everyOrder order permutes
    cases only _ _ answered
  · intro asked
    rw [source]
    exact ⟨exactAnswer_of_asked asked WorkOrder.lifo_permutes,
      fun _ permutes => exactAnswer_of_asked asked permutes⟩

/-- A violation whose message is a number, which has no `includes`. -/
def numberMessage : ErrorWithDriverCode :=
  { code := .string "23505", message := .other fun _ => none }

/-- It is no duplicate, and the classifier throws on it. -/
theorem isDuplicateLogEntryIdError_throws :
    ¬ ((ExactAnswer [numberMessage] (some 0) (isDuplicateLogEntryIdError [numberMessage] (some 0))) ∧
      ∀ order : WorkOrder Nat, order.Permutes →
        ExactAnswer [numberMessage] (some 0)
          (isDuplicateLogEntryIdErrorIn order [numberMessage] (some 0))) := by
  have throws : isDuplicateLogEntryIdError [numberMessage] (some 0) =
      some (.error .typeError) := by decide
  rintro ⟨⟨duplicate, answered, -⟩, -⟩
  rw [throws] at answered
  cases answered

/-! ## What the driver throws -/

/-- The fields of the protocol's error response, which the driver puts on the error it throws.
`quoted` is the key that the server quotes in the detail of a violation. -/
def PgError.thrown (quoted : String) : PgError → ErrorWithDriverCode
  | .invalidByteSequence =>
    { code := .string "22021", message := .string "invalid byte sequence for encoding \"UTF8\": 0x00" }
  | .stringDataRightTruncation =>
    { code := .string "22001", message := .string "value too long for type character varying(255)" }
  | .datetimeFieldOverflow =>
    { code := .string "22008", message := .string "date/time field value out of range" }
  | .numericValueOutOfRange =>
    { code := .string "22003", message := .string "bigint out of range" }
  | .uniqueViolation .log_entry_sync_pkey =>
    { code := .string "23505"
      constraint := .string "log_entry_sync_pkey"
      detail := .string ("Key (id)=(" ++ quoted ++ ") already exists.")
      message := .string
        "duplicate key value violates unique constraint \"log_entry_sync_pkey\"" }
  | .uniqueViolation .entries_by_syncSeq_idx =>
    { code := .string "23505"
      constraint := .string "entries_by_syncSeq_idx"
      detail := .string ("Key (community_id, sync_seq)=(" ++ quoted ++ ") already exists.")
      message := .string
        "duplicate key value violates unique constraint \"entries_by_syncSeq_idx\"" }

/-- The classifier on what a failed statement throws. -/
def PgError.isDuplicateLogEntryId (e : PgError) (quoted : String) : Bool :=
  match isDuplicateLogEntryIdError [e.thrown quoted] (some 0) with
  | some (.ok duplicate) => duplicate
  | _ => false

/-- A violation of the primary key is classified as a duplicate, whatever key is quoted. -/
theorem isDuplicateLogEntryId_pkey (quoted : String) :
    (PgError.uniqueViolation .log_entry_sync_pkey).isDuplicateLogEntryId quoted = true := by
  simp [PgError.isDuplicateLogEntryId, isDuplicateLogEntryIdError, searchDuplicate, isDuplicate,
    PgError.thrown, isUniqueConstraintViolation, isLogEntrySyncPrimaryKeyViolation, ErrorField.is,
    LOG_ENTRY_SYNC_PRIMARY_KEY, pure, Except.pure]

/-- Whatever is classified as a duplicate violates a unique index. -/
theorem uniqueViolation_of_isDuplicateLogEntryId {e : PgError} {quoted : String}
    (duplicate : e.isDuplicateLogEntryId quoted = true) : ∃ index, e = .uniqueViolation index := by
  cases e with
  | uniqueViolation index => exact ⟨index, rfl⟩
  | _ =>
    simp [PgError.isDuplicateLogEntryId, isDuplicateLogEntryIdError, searchDuplicate, isDuplicate,
      PgError.thrown, isUniqueConstraintViolation, ErrorField.is] at duplicate

end QuietStorage.Storage
