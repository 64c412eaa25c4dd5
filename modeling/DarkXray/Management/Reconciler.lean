import DarkXray.Management.Engine

/-!
# The reconciler

{lit}`Manager.tick` meters every client, carries out the operations that wait for clients, and
brings what the core shows back in line with the policy.

Main definitions:

- {lit}`apply`: one operation, step by step.
- {lit}`tick`: the reconciliation of all clients.
-/

namespace DarkXray
namespace Management

open Library Policy Usage
open DarkXray.Core (Record ClientRow ClientStore sortedSet sameSubId emailRe writable)

/-! ## One client -/

/-- {lit}`SYSTEM`. -/
def system : Actor where
  id := "_dark_system"
  role := .owner
  permissions := []

/-- {lit}`Manager.meta`. -/
def metaOf (email : String) : Call ManagedRow := do
  let row ← Tx.read fun s => s.managed.get? email
  Tx.demand row (policyError "Managed metadata missing")

/-- The counters of a record. -/
def trafficOf (record : ClientRow) : Counters :=
  ⟨.int record.up, .int record.down⟩

/-- {lit}`Manager._charge_snapshot` with the stored metering columns. -/
def charge (env : Setting) (email : String) (record : ClientRow) : Call Unit := do
  point
  let meter ← Tx.read fun s => s.accounts.managed.get? email
  let meter ← Tx.demand meter (policyError "Managed metadata missing")
  onAccounts (chargeSnapshot env.texts.digest email meter (some (trafficOf record)))

/-- Bytes that count for the quota of a client. -/
def Panel.usedBytes (s : Panel) (email : String) : ℤ :=
  (s.accounts.clients.get? email).elim 0 Nodes.MeteredClient.usedBytes

/-- {lit}`Store.client_reasons`. -/
def Panel.clientReasons (s : Panel) (now : ℚ) (email : String) : List String :=
  match s.policy.clients.get? email with
  | none => ["missing_client"]
  | some u =>
      (if u.manual then ["client_manual"] else []) ++
      (if s.blocked email then ["global_quota"] else []) ++
      (if u.expiresAt ≠ 0 ∧ (u.expiresAt : ℚ) ≤ now then ["expired"] else []) ++
      (if u.quotaBytes ≠ 0 ∧ u.quotaBytes ≤ s.usedBytes email then ["client_quota"] else []) ++
      match s.policy.owners.get? u.owner with
      | none => ["missing_owner"]
      | some r =>
          (if r.manual then ["owner_manual"] else []) ++
          (if r.accountDisabled then ["owner_account_disabled"] else [])

/-- {lit}`not self.store.client_reasons(email) and not meta['external_disabled']`. -/
def Panel.enabled (s : Panel) (now : ℚ) (email : String) (row : ManagedRow) : Bool :=
  (s.clientReasons now email).isEmpty && !row.externalDisabled

/-! ## Resets on a schedule -/

/-- The traffic reset settings in a document. -/
def resetSettings (texts : Texts) (desired : Doc) : Except Halt ResetSettings := do
  let days ← intOr0 texts desired "reset"
  let day ← intOr0 texts desired "resetTrafficDay"
  let count ← intOr0 texts desired "resetCount"
  return ⟨(desired.get? "resetTraffic").bind Doc.str?, some days, some day, some count⟩

/-- The row of a client that waits for a reset. -/
def ManagedRow.awaitReset (opId : ℕ) (row : ManagedRow) : ManagedRow :=
  { row with op := .reset, opId := some opId, state := .pending, retryAt := 0, attempts := 0,
             error := "" }

/-- Write the row of a schedule that is new or has changed. -/
def restartSchedule (env : Setting) (email : String) (spec : ScheduleSpec) (cap : ℤ) :
    Call Unit := do
  let nextAt ← ofFailure (initialCycleAt env.offset spec env.now)
  let row := spec.start cap nextAt
  Tx.write fun s => { s with cycles := s.cycles.upsert email row fun _ => row }

/-- Go on with a row that belongs to the schedule. -/
def continueSchedule (env : Setting) (email : String) (row : ManagedRow) (cycle : Cycle)
    (cap : ℤ) : Call Unit := do
  Tx.write fun s => { s with cycles := s.cycles.update email fun c => { c with maxResets := cap } }
  Tx.when (¬(cap ≠ 0 ∧ cap ≤ cycle.completed) ∧ cycle.nextAt ≤ env.now ∧ row.op = .none ∧
      row.state = .applied) do
    let opId ← token
    setManaged email (ManagedRow.awaitReset opId)

/-- The body of the loop of {lit}`Manager._schedule_cycles`. -/
def schedule (env : Setting) (email : String) (row : ManagedRow) : Call Unit := do
  let settings ← Tx.ofExcept (resetSettings env.texts row.desired.doc)
  match scheduleSpec settings with
  | none => Tx.write fun s => { s with cycles := s.cycles.erase email }
  | some spec => do
      let cap := settings.resetCount.getD 0
      match ← Tx.read fun s => s.cycles.get? email with
      | none => restartSchedule env email spec cap
      | some cycle =>
          if cycle.spec ≠ spec then restartSchedule env email spec cap
          else continueSchedule env email row cycle cap

/-- Rows of clients that are not deleted. -/
def Panel.metas (s : Panel) : List (String × ManagedRow) :=
  s.managed.rows.filter fun r => r.2.state ≠ .deleted

/-- {lit}`Manager._schedule_cycles` for the clients that a test selects. -/
def scheduleCycles (env : Setting) (select : String → Bool) : Call Unit :=
  commit do
    let metas ← Tx.read Panel.metas
    (metas.filter fun m => select m.1).forM fun m => schedule env m.1 m.2

/-- Move the deadline of a client that is due. -/
def advanceCycle (env : Setting) (email : String) (row : Cycle) : Call Unit :=
  Tx.when (row.nextAt ≤ env.now) do
    let nextAt ← ofFailure (row.following env.offset env.now)
    Tx.write fun s => { s with cycles := s.cycles.update email fun c =>
      { c with nextAt := nextAt, completed := c.completed + 1 } }

/-- {lit}`Manager._complete_cycle`. -/
def completeCycle (env : Setting) (email : String) : Call Unit :=
  commit do
    match ← Tx.read fun s => s.cycles.get? email with
    | none => return ()
    | some row => advanceCycle env email row

/-! ## Operations -/

/-- {lit}`remote_reset`; what the Nodes do with it is not of interest here. -/
def remoteReset : Call Unit := do
  let _ ← reach
  return ()

/-- The row of a client that waits for nothing. -/
def ManagedRow.applied (row : ManagedRow) : ManagedRow :=
  { row with op := .none, opId := none, state := .applied, error := "", retryAt := 0,
             attempts := 0 }

/-- The row of a client whose edit the core has taken over. -/
def ManagedRow.takenOver (enabled : Bool) (row : ManagedRow) : ManagedRow :=
  { row.applied with expectedEnable := some enabled }

/-- The row of a client that is gone. -/
def ManagedRow.deleted (row : ManagedRow) : ManagedRow :=
  { row.applied with state := .deleted, desired := ⟨.dict [], rfl⟩ }

/-- The record of another client under the same identity. -/
def identityConflict (message : String) : Halt :=
  .coreError message 409

/-- The record belongs to the client that the panel wants. -/
def checkIdentity (record : ClientRow) (row : ManagedRow) (message : String) : Call Unit :=
  Tx.require (sameSubId record.body row.desired = true) (identityConflict message)

/-- The last counters of a client that is being deleted. -/
def finalSnapshot (email : String) (row : ManagedRow) (existing : Option ClientRow) :
    Call (Option ClientRow) :=
  match existing with
  | some record => do
      checkIdentity record row "Identity conflict: refusing to delete a different engine client"
      engineDelete email
  | none => do
      let final ← deletedClientSnapshot email
      Tx.require (final.all (fun record => sameSubId record.body row.desired) = true)
        (identityConflict "Deleted core snapshot identity conflict; refusing recovery")
      return final

/-- Charge the last counters, if there are any. -/
def chargeFinal (env : Setting) (email : String) (final : Option ClientRow) : Call Unit :=
  match final with
  | some record => charge env email record
  | none => return ()

/-- {lit}`Store.delete_client` with the metering columns. -/
def deletePolicy (email : String) : Call Unit :=
  commit do
    onPolicy (deleteClient system email)
    Tx.write fun s => { s with
      accounts := { s.accounts with clients := s.accounts.clients.erase email } }

/-- {lit}`_apply` of a deletion. -/
def applyDelete (env : Setting) (email : String) (row : ManagedRow)
    (existing : Option ClientRow) : Call Unit := do
  remoteReset
  let final ← finalSnapshot email row existing
  chargeFinal env email final
  let known ← Tx.read fun s => (s.policy.clients.get? email).isSome
  Tx.when (known = true) (deletePolicy email)
  commit (Tx.write fun s => { s with
    cycles := s.cycles.erase email
    managed := s.managed.update email ManagedRow.deleted })

/-- {lit}`_apply` of a reset. -/
def applyReset (env : Setting) (email : String) (existing : Option ClientRow) : Call Unit := do
  Tx.require (existing.isSome = true)
    (identityConflict "CoreEngine client missing; reset refused")
  commit (setManaged email fun row => { row with state := .resetInflight })
  remoteReset
  let final ← engineReset email
  chargeFinal env email final
  commit (onAccounts (settleReset email true))
  completeCycle env email

/-- Bring the inbounds of a client in line. -/
def alignInbounds (email : String) (actual want : List ℤ) : Call Unit := do
  Tx.when (∃ i ∈ want, i ∉ actual) (engineAttach email (sortedSet (want.filter (· ∉ actual))))
  Tx.when (∃ i ∈ actual, i ∉ want) (engineDetach email (sortedSet (actual.filter (· ∉ want))))

/-- The client that the core gets. -/
def wantedClient (row : ManagedRow) (enabled : Bool) : Record :=
  row.desired.set "enable" (.bool enabled)

/-- {lit}`_apply` of an edit. -/
def applyUpsert (env : Setting) (email : String) (row : ManagedRow)
    (existing : Option ClientRow) : Call Unit := do
  let enabled ← Tx.read fun s => s.enabled env.now email row
  match existing with
  | none => engineCreate (wantedClient row enabled) row.inbounds
  | some record => do
      checkIdentity record row
        "Identity conflict: engine subId changed; explicit re-adoption is required"
      engineUpdate email (wantedClient row enabled)
      alignInbounds email record.inbounds row.inbounds
  commit (setManaged email fun row => { row with expectedEnable := some enabled })

/-- {lit}`Manager._apply`. -/
def apply (env : Setting) (email : String) (row : ManagedRow) (existing : Option ClientRow) :
    Call Unit :=
  match row.op with
  | .delete => applyDelete env email row existing
  | .reset => do
      applyReset env email existing
      commit (setManaged email ManagedRow.applied)
  | .upsert => do
      applyUpsert env email row existing
      commit (setManaged email ManagedRow.applied)
  | .none => commit (setManaged email ManagedRow.applied)

/-- {lit}`mark_failure`; no call of the core raises an uncertain exception. -/
def markFailure (env : Setting) (email : String) (attempts : ℕ) (h : Halt) : Call Unit :=
  commit (setManaged email fun row => { row with
    state := if h.isConflict then .conflict else .error
    error := (h.message.take 400).toString
    attempts := attempts + 1
    retryAt := env.now + min 300 (5 * 2 ^ min (attempts + 1) 6) })

/-! ## A tick -/

/-- The row of a client under whose identity the core holds another one. -/
def ManagedRow.conflicting (row : ManagedRow) : ManagedRow :=
  { row with
    state := .conflict
    error := "CoreEngine identity changed; refusing to meter or modify another client" }

/-- The row of a client whose record is gone. -/
def ManagedRow.vanished (row : ManagedRow) : ManagedRow :=
  { row with
    state := .missing
    error := "CoreEngine client missing; automatic recreation refused" }

/-- Meter a client, or find out that its record is gone or belongs to another one; the result
is the row as the tick goes on with it. -/
def observe (env : Setting) (records : Table String ClientRow) (m : String × ManagedRow) :
    Call (String × ManagedRow) :=
  match records.get? m.1 with
  | some record =>
      if sameSubId record.body m.2.desired = true then do
        charge env m.1 record
        return m
      else do
        commit (setManaged m.1 ManagedRow.conflicting)
        return (m.1, { m.2 with state := .conflict })
  | none =>
      if m.2.op = .none then do
        commit (setManaged m.1 ManagedRow.vanished)
        return (m.1, { m.2 with state := .missing })
      else return m

/-- An edit that a tick carries out. -/
structure Edit where
  email : String
  row : ManagedRow
  enabled : Bool

/-- An item of a batch. -/
def batchItem (email : String) (client : Record) (inbounds : List ℤ) : Doc :=
  .dict [("email", .str email), ("client", client.doc), ("inbounds", .list (inbounds.map Doc.int))]

/-- The item of the batch for an edit. -/
def Edit.item (x : Edit) : Doc :=
  batchItem x.email (wantedClient x.row x.enabled) x.row.inbounds

/-- Something was changed, and the edits that are still to be carried out. -/
structure Progress where
  changed : Bool
  batch : List Edit

/-- Take up an edit. -/
def planUpsert (env : Setting) (existing : Option ClientRow) (email : String) (row : ManagedRow)
    (acc : Progress) : Call Progress := do
  Tx.require (existing.all (fun record => sameSubId record.body row.desired) = true)
    (identityConflict "Identity conflict: engine subId changed; explicit re-adoption is required")
  let enabled ← Tx.read fun s => s.enabled env.now email row
  return { acc with batch := acc.batch ++ [⟨email, row, enabled⟩] }

/-- Carry out an operation now, and note if it fails. -/
def attempt (env : Setting) (email : String) (row : ManagedRow) (existing : Option ClientRow)
    (changed : Bool) : Call Bool :=
  Tx.handle (do apply env email row existing; return true) fun h =>
    if h.caught then some (do markFailure env email row.attempts h; return changed) else none

/-- A client whose operation is not due in this tick. -/
def Idles (env : Setting) (writes : Bool) (row : ManagedRow) : Prop :=
  row.op = .none ∨ env.now < row.retryAt ∨ row.state = .uncertain ∨ row.state = .conflict ∨
    writes = false

instance instDecidableIdles (env : Setting) (writes : Bool) (row : ManagedRow) :
    Decidable (Idles env writes row) :=
  inferInstanceAs (Decidable (_ ∨ _))

/-- The body of the loop over the clients. -/
def process (env : Setting) (records : Table String ClientRow) (acc : Progress)
    (m : String × ManagedRow) : Call Progress := do
  let writes ← Tx.read Panel.writesEnabled
  if Idles env writes m.2 then return acc
  else if m.2.op = .upsert then
    Tx.handle (planUpsert env (records.get? m.1) m.1 m.2 acc) fun h =>
      if h.caught then some (do markFailure env m.1 m.2.attempts h; return acc) else none
  else do
    let changed ← attempt env m.1 m.2 (records.get? m.1) acc.changed
    return { acc with changed := changed }

/-- The rows of edits that were carried out. -/
def settleBatch (batch : List Edit) : Call Unit :=
  commit (batch.forM fun x => setManaged x.email (ManagedRow.takenOver x.enabled))

/-- Carry out the edits: all of them at once, or one after the other if that fails. -/
def runBatch (env : Setting) (records : Table String ClientRow) (acc : Progress) : Call Bool :=
  if acc.batch.isEmpty then return acc.changed
  else
    Tx.handle (do
        engineUpsertMany (acc.batch.map Edit.item)
        settleBatch acc.batch
        return true) fun h =>
      if h.caught then
        some (acc.batch.foldlM
          (fun changed x => attempt env x.email x.row (records.get? x.email) changed) acc.changed)
      else none

/-- Put the quota of the policy back into the core. -/
def rejectQuota (email : String) (record : ClientRow) (u : Client) (h : Halt) :
    Call ClientRow := do
  audit system.id u.owner "resource_credit.external_quota_rejected" email
    (h.message.take 300).toString
  let writes ← Tx.read Panel.writesEnabled
  if writes = true then do
    engineUpdate email ((writable record.body).set "totalGB" (.int u.quotaBytes))
    return { record with body := record.body.set "totalGB" (.int u.quotaBytes) }
  else return record

/-- A quota that was changed in the core is taken over, or put back if the credit does not
suffice; the result is the record as it is then. -/
def reconcileQuota (env : Setting) (email : String) (record : ClientRow) (u : Client)
    (observed : ℤ) : Call ClientRow :=
  if observed ≠ u.quotaBytes then
    Tx.handle (do
      point
      onPolicy (editClient system email ⟨.none, .int observed, .none, .none⟩ ⌊env.now⌋)
      return record) fun h =>
        if h.isPolicyError then some (rejectQuota email record u h) else none
  else return record

/-- The row of a client with another expiry. -/
def expiring (expiresAt : ℤ) (u : Client) : Client :=
  { u with expiresAt := expiresAt }

/-- An expiry that was changed in the core is taken over. -/
def reconcileExpiry (email : String) (u : Client) (observed : ℤ) : Call Unit :=
  Tx.when (observed ≠ u.expiresAt) (commit (Tx.write fun s => { s with
    policy := { s.policy with
      clients := s.policy.clients.update email (expiring observed) } }))

/-- Quota and expiry of a client that the policy knows. -/
def reconcilePolicy (env : Setting) (email : String) (record : ClientRow) : Call ClientRow := do
  let quota ← Tx.ofExcept (intAt env.texts record.body.doc "totalGB")
  let expiry ← Tx.ofExcept (intAt env.texts record.body.doc "expiryTime")
  match ← Tx.read fun s => s.policy.clients.get? email with
  | none => return record
  | some u => do
      let record ← reconcileQuota env email record u quota
      reconcileExpiry email u (max 0 (expiry / 1000))
      return record

/-- A client was disabled outside of the panel. -/
def noteExternal (env : Setting) (email : String) (record : ClientRow) (row : ManagedRow) :
    Call ManagedRow := do
  let free ← Tx.read fun s => (s.clientReasons env.now email).isEmpty
  if (record.body.doc.get? "enable").bind Doc.bool? = some false ∧ row.expectedEnable = some true ∧
      free = true then do
    commit (setManaged email fun row => { row with externalDisabled := true })
    return { row with externalDisabled := true }
  else return row

/-- Enable or disable a client in the core, and store what the core shows. -/
def reconcileEnable (env : Setting) (email : String) (record : ClientRow) (row : ManagedRow) :
    Call Unit := do
  let row ← noteExternal env email record row
  let enabled ← Tx.read fun s => s.enabled env.now email row
  let writes ← Tx.read Panel.writesEnabled
  let shown := record.body.doc.truthyAt "enable"
  let acts := shown ≠ enabled ∧ writes = true
  Tx.when acts (engineUpdate email ((writable record.body).set "enable" (.bool enabled)))
  let shown := if acts then enabled else shown
  Tx.when (row.expectedEnable ≠ some shown)
    (commit (setManaged email fun row => { row with expectedEnable := some shown }))

/-- Bring a client in line that waits for nothing. -/
def settleRow (env : Setting) (record : ClientRow) (m : String × ManagedRow) : Call Unit := do
  Tx.when (m.2.state = .missing)
    (commit (setManaged m.1 fun row => { row with state := .applied, error := "" }))
  charge env m.1 record
  let record ← reconcilePolicy env m.1 record
  reconcileEnable env m.1 record m.2

/-- The body of the last loop. -/
def settle (env : Setting) (records : Table String ClientRow) (m : String × ManagedRow) :
    Call Unit :=
  match records.get? m.1 with
  | none => return ()
  | some record =>
      if m.2.op ≠ .none ∨ m.2.state = .conflict ∨ m.2.state = .uncertain then return ()
      else settleRow env record m

/-- The records and the rows that the last loop works on. -/
def reread (changed : Bool) (records : Table String ClientRow)
    (metas : List (String × ManagedRow)) :
    Call (Table String ClientRow × List (String × ManagedRow)) :=
  if changed then do
    let records ← engineClients
    let metas ← Tx.read Panel.metas
    return (records, metas)
  else return (records, metas)

/-- The part of a tick that changes something, after all clients were metered. -/
def carryOut (env : Setting) (records : Table String ClientRow)
    (metas : List (String × ManagedRow)) : Call Unit := do
  let acc ← metas.foldlM (process env records) ⟨false, []⟩
  let changed ← runBatch env records acc
  let last ← reread changed records metas
  last.2.forM (settle env last.1)
  engineFlush

/-- The body of {lit}`Manager.tick`. -/
def tickBody (env : Setting) : Call Unit := do
  scheduleCycles env fun _ => true
  let records ← engineClients
  let metas ← Tx.read Panel.metas
  let metas ← metas.mapM (observe env records)
  carryOut env records metas

/-- {lit}`Manager.tick`; an exception is noted, and raised again unless that is suppressed. -/
def tick (env : Setting) (suppress : Bool) : Call Unit :=
  Tx.handle (tickBody env) fun h =>
    if h.isException && suppress then some (pure ()) else none

end Management
end DarkXray
