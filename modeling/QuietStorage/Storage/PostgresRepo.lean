import QuietStorage.Encryption.Secrets
import QuietStorage.Lib.Transactions

/-!
# Storage.PostgresRepo — the repository of one entity

`PostgresRepo` as programs of the statements of `Lib.Transactions`, generic in the entity. `transactional`
is that of the entity manager: it commits what its callback leaves, and rolls back what it throws; a
repository of the entity manager (`em.getRepository`) sends one statement for a call.

A program has one variable, the `result` that `has` and `clearRepository` assign inside the transaction
and return after it: a commit that fails does not take it back.

Left out: the logger, the identity map of the entity manager, `findMany`, which no service calls, and the
difference between `undefined` and `null`, which no caller makes.
-/

set_option autoImplicit false

namespace QuietStorage.PostgresRepo

open Lib Encryption

/-- What is thrown: an `Error` with its message, or what the driver throws. -/
inductive StorageError where
  | error (message : String)
  | sql (e : SqlError)
  deriving DecidableEq, Repr

section
variable {T U : Type}

/-- A program of the repository; its variable is `result`. -/
abbrev RepoM (T U α : Type) := DbM (Option Nat) T U StorageError α

/-- `entityManager.transactional(cb)`. -/
def transactional {α : Type} (cb : RepoM T U α) : RepoM T U α := do
  Async.send Statement.start
  try
    let result ← cb
    Async.send Statement.commit
    pure result
  catch e =>
    Async.send Statement.rollback
    throw e

/-- `add`; `upsert` is false where it is left out. The callback commits before `transactional` does. -/
def add (entity : T) (upsert : Bool) : RepoM T U Bool := do
  transactional do
    if upsert then Async.send (Statement.upsert entity) else Async.send (Statement.insert entity)
    Async.send Statement.commit
  pure true

def update (id : String) (updates : U) : RepoM T U Bool := do
  try
    let result ← transactional (Async.send (Statement.nativeUpdate id updates))
    pure (decide (0 < result))
  catch _ => pure false

def updateAndFindOne (id : String) (updates : U) : RepoM T U (Option T) := do
  try
    transactional do
      let updateCount ← Async.send (Statement.nativeUpdate id updates)
      if updateCount = 0 then pure none
      else Async.send (Statement.findOne id)
  catch _ => pure none

def findOne (id : String) : RepoM T U (Option T) := do
  try transactional (Async.send (Statement.findOne id))
  catch _ => pure none

/-- `has`, with the count in the place of `result`. -/
def has (id : String) : RepoM T U (Option Bool) := do
  Async.modify fun _ => none
  try
    transactional do
      let count ← Async.send (Statement.count id)
      Async.modify fun _ => some count
  catch _ => pure ()
  let result ← Async.get
  pure (result.map fun count => decide (0 < count))

/-- `clearRepository`; `getEnv` is what `ConfigService.getEnv()` returns or throws. -/
def clearRepository (getEnv : Except StorageError Environment) : RepoM T U (Option Nat) := do
  let env ← MonadExcept.ofExcept getEnv
  if env = .Production then throw (.error "Clearing a repsitory is forbidden in production")
  else
    Async.modify fun _ => none
    try
      transactional do
        let count ← Async.send Statement.nativeDelete
        Async.modify fun _ => some count
    catch _ => pure ()
    Async.get

end

end QuietStorage.PostgresRepo
