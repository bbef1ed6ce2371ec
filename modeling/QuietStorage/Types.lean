import QuietStorage.Lib.JsNumber

/-!
# Types — the payloads that cross the websocket and the storage boundary

The data of `communities/types.ts` and `websocket/handlers/types`, with every field the source
gives them. A `Buffer` or `Uint8Array` is its list of bytes, a luxon `DateTime` its milliseconds
since the epoch (`toMillis`), an optional property an `Option`. A JSON number that the code only
stores or compares is an integer.
-/

set_option autoImplicit false

namespace QuietStorage

/-- `Buffer`, `Uint8Array`. -/
abbrev Bytes := List UInt8

abbrev TeamId := String
abbrev UserId := String
abbrev SocketId := String

/-- `KeyMetadata` of the key that signed an entry. -/
structure KeyMetadata where
  type : String
  name : String
  generation : Nat
  deriving DecidableEq, Repr

structure Signature where
  signature : String
  author : KeyMetadata
  deriving DecidableEq, Repr

inductive EncryptionScopeType where
  | ROLE | CHANNEL | USER | TEAM
  deriving DecidableEq, Repr

structure EncryptionScopeDetail where
  type : EncryptionScopeType
  name : Option String
  generation : Nat
  deriving DecidableEq, Repr

structure LFAEncryptedPayload where
  contents : Bytes
  scope : EncryptionScopeDetail
  deriving DecidableEq, Repr

/-- The encrypted and signed oplog entry that a member sends. -/
structure EncryptedAndSignedPayload where
  encrypted : LFAEncryptedPayload
  signature : Signature
  ts : Int
  userId : UserId
  teamId : TeamId
  deriving DecidableEq, Repr

/-- The entry as the storage layer takes and returns it. `hashedDbId` is `none` for a row written
before the column existed. -/
structure LogSyncEntry where
  cid : String
  hashedDbId : Option String
  communityId : TeamId
  entry : Bytes
  receivedAt : Int
  syncSeq : Option Int := none
  deriving DecidableEq, Repr

inductive CommunityOperationStatus where
  | ERROR | SUCCESS | UNAUTHORIZED | NOT_FOUND | SENDING
  deriving DecidableEq, Repr

structure LogEntrySyncPayload where
  teamId : TeamId
  hash : String
  hashedDbId : String
  encEntry : EncryptedAndSignedPayload
  receivedAt : Option Int := none
  syncSeq : Option Int := none
  deriving DecidableEq, Repr

structure LogEntrySyncMessage where
  ts : Int
  status : CommunityOperationStatus
  reason : Option String := none
  payload : LogEntrySyncPayload
  deriving DecidableEq, Repr

structure LogEntrySyncResponsePayload where
  teamId : TeamId
  hash : String
  hashedDbId : String
  receivedAt : Option Int := none
  syncSeq : Option Int := none
  deriving DecidableEq, Repr

structure LogEntrySyncResponseMessage where
  ts : Int
  status : CommunityOperationStatus
  reason : Option String := none
  payload : LogEntrySyncResponsePayload
  deriving DecidableEq, Repr

inductive Direction where
  | forward | backward
  deriving DecidableEq, Repr

structure LogEntryPullPayload where
  teamId : TeamId
  userId : UserId
  direction : Option Direction := none
  cursor : Option String := none
  startSeq : Option Int := none
  endSeq : Option Int := none
  startTs : Option Int := none
  endTs : Option Int := none
  limit : Option Nat := none
  hash : Option String := none
  hashedDbId : Option String := none
  deriving DecidableEq, Repr

structure LogEntryPullResponsePayload where
  cursor : Option String := none
  hasNextPage : Bool
  entries : List Bytes
  highestSyncSeq : Option Int := none
  resolvedStartSeq : Option Int := none
  deriving DecidableEq, Repr

/-- Where a stored entry stands in its community's log. -/
structure StoredSyncPosition where
  receivedAtMs : Int
  syncSeq : Int
  deriving DecidableEq, Repr

/-- `toSyncSeq`: `Number(value)` of a `bigint` column. Exact as long as the sequence stays a
binary64 number, which the source takes for granted (`Number.MAX_SAFE_INTEGER`). -/
def toSyncSeq (value : Int) : Int := Lib.JsNumber.ofInt value

theorem toSyncSeq_of_representable {n : Int} (h : Lib.JsNumber.Representable n) :
    toSyncSeq n = n := h

end QuietStorage
