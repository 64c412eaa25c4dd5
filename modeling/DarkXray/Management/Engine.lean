import DarkXray.Management.Records

/-!
# The clients of the core

The calls of {lit}`CoreEngine` on its clients, as the manager makes them: each of them may fail,
and is one transaction.

Main definitions:

- {lit}`engineUpsertMany`: the batch of edits that a tick makes.
- {lit}`engineDelete`, {lit}`engineReset`: the operations that return final counters.
-/

namespace DarkXray
namespace Management

open Library Policy Usage
open DarkXray.Core (Record ClientRow ClientStore sortedSet sameSubId emailRe writable)

/-! ## Reading -/

/-- Add the bytes that a client moved to its row. -/
def addSamples (samples : List (String × ℕ × ℕ)) (email : String) (row : ClientRow) : ClientRow :=
  match samples.lookup email with
  | none => row
  | some (up, down) => { row with up := row.up + up, down := row.down + down }

/-- {lit}`collect_stats`: the counters of the core advance. -/
def collect (samples : List (String × ℕ × ℕ)) : Call Unit :=
  Tx.write fun s => { s with core := s.core.mapRows (addSamples samples) }

/-- {lit}`CoreEngine.clients`. -/
def engineClients : Call (Table String ClientRow) := do
  let samples ← reach
  collect samples
  Tx.read Panel.core

/-- {lit}`CoreEngine.client_detail`. -/
def clientDetail (email : String) : Call ClientRow :=
  onCore (Core.clientDetail email)

/-- {lit}`CoreEngine.client_snapshot` after {lit}`collect_stats`. -/
def clientSnapshot (email : String) : Call (Option ClientRow) := do
  let samples ← reach
  collect samples
  Tx.read fun s => s.core.get? email

/-- {lit}`CoreEngine.deleted_client_snapshot`. -/
def deletedClientSnapshot (email : String) : Call (Option ClientRow) :=
  Tx.read fun s => s.tombstones.get? email

/-! ## Writing -/

/-- {lit}`CoreEngine.upsert_many`. -/
def engineUpsertMany (items : List Doc) : Call Unit := do
  let _ ← reach
  let _ ← onCore (Core.upsertMany items)
  return ()

/-- {lit}`CoreEngine.create`. -/
def engineCreate (client : Record) (inbounds : List ℤ) : Call Unit := do
  let _ ← reach
  onCore (Core.create client inbounds)

/-- {lit}`CoreEngine.update`. -/
def engineUpdate (email : String) (client : Record) : Call Unit := do
  let _ ← reach
  onCore (Core.update email client)

/-- {lit}`CoreEngine.attach`. -/
def engineAttach (email : String) (ids : List ℤ) : Call Unit := do
  let _ ← reach
  onCore (Core.attach email ids)

/-- {lit}`CoreEngine.detach`. -/
def engineDetach (email : String) (ids : List ℤ) : Call Unit := do
  let _ ← reach
  onCore (Core.detach email ids)

/-- Move a client to the tombstones. -/
def entomb (email : String) : Call (Option ClientRow) := do
  match ← Tx.read fun s => s.core.get? email with
  | none => return none
  | some row => do
      Tx.write fun s => { s with
        tombstones := s.tombstones.upsert email row fun _ => row
        core := s.core.erase email }
      return some row

/-- {lit}`CoreEngine.delete`: the final counters stay in a tombstone. -/
def engineDelete (email : String) : Call (Option ClientRow) := do
  onCore Core.engineWrite
  let samples ← reach
  collect samples
  commit (entomb email)

/-- Set the counters of a client to zero. -/
def zeroCounters (email : String) : Call (Option ClientRow) := do
  let row ← Tx.read fun s => s.core.get? email
  Tx.write fun s => { s with
    core := s.core.update email fun row => { row with up := 0, down := 0 }
    resets := s.resets ++ [email] }
  return row

/-- {lit}`CoreEngine.reset`. -/
def engineReset (email : String) : Call (Option ClientRow) := do
  onCore Core.engineWrite
  let samples ← reach
  collect samples
  commit (zeroCounters email)

/-- {lit}`CoreEngine.flush`. -/
def engineFlush : Call Unit := do
  let _ ← reach
  return ()

end Management
end DarkXray
