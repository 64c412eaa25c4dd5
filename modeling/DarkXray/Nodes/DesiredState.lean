import Mathlib.Data.List.Sort
import DarkXray.Library.Preconditions
import DarkXray.Library.Tables
import DarkXray.Nodes.Envelope
import DarkXray.Nodes.Runtime

/-!
# Application of a desired state

The Agent replaces its configuration by the one in an envelope: it stops the old
generation of Xray, takes a snapshot of its tables, replaces their rows in one
transaction, starts the new generation and records the revision in another one.
When anything raises it puts the snapshot back.  Whatever can fail on the way is an
input of the model.

Main results:

- Theorem {lit}`get?_accrue`: what the statistics of a generation add to a client.
- Theorems {lit}`wp_attempt`, {lit}`wp_runEngine`, {lit}`wp_noting` and
  {lit}`wp_addRow`: the rules of the steps that an application is made of.
-/

namespace DarkXray
namespace Nodes

open Library Policy

/-! ## Tables -/

/-- A row of {lit}`core_clients`. -/
structure CoreClient where
  body : Doc Scalar
  inbounds : List ℤ
  up : ℕ
  down : ℕ

/-- A row of {lit}`clients`. -/
structure MirrorPolicy where
  owner : String
  limitIp : ℤ
  globalIpBlock : Bool
  globalDeviceBlock : Bool

/-- A row of {lit}`node_runtime_inbounds`. -/
structure InboundSource where
  localInboundId : ℤ
  sourceTag : String
  updatedAt : ℕ

/-- A row of {lit}`node_runtime_clients`. -/
structure ClientMirror where
  mirrorEmail : String
  updatedAt : ℕ

/-- The row of {lit}`node_runtime_state`. -/
structure StateRow where
  appliedRevision : ℤ
  appliedHash : String
  updatedAt : ℕ
  lastError : String
deriving DecidableEq

/-- The tables of the snapshot, as far as an application touches them; {lit}`ordered`
says that {lit}`node_runtime_commands` has a row, and is not part of the snapshot. -/
structure AgentDb where
  coreInbounds : Table ℤ (Doc Scalar)
  coreClients : Table String CoreClient
  coreSections : Table String (Doc Scalar)
  owners : Table String Unit
  clients : Table String MirrorPolicy
  observations : List (String × Doc Scalar)
  coreDevices : List (String × Doc Scalar)
  runtimeInbounds : Table ℤ InboundSource
  runtimeClients : Table String ClientMirror
  control : Option ControlBits
  state : Option StateRow
  ordered : Bool

/-- {lit}`status`; the time of the update is left out. -/
structure Status where
  appliedRevision : ℤ
  appliedHash : String
  lastError : String
deriving DecidableEq, Repr

/-- {lit}`status`. -/
def AgentDb.status (db : AgentDb) : Status :=
  db.state.elim ⟨0, "", ""⟩ fun r => ⟨r.appliedRevision, r.appliedHash, r.lastError⟩

/-- The state of the engine that an application reads. -/
structure EngineState where
  running : Bool
  wantsRunning : Bool
  appliedHash : String

/-- The Agent. -/
structure Agent where
  db : AgentDb
  engine : EngineState

/-! ## The engine -/

/-- Bytes that {lit}`collect_stats` adds to a client. -/
structure Sample where
  email : String
  up : ℕ
  down : ℕ
deriving DecidableEq, Repr

/-- The updates of {lit}`collect_stats`. -/
def accrue (samples : List Sample) (t : Table String CoreClient) : Table String CoreClient :=
  samples.foldl (fun t s =>
    t.update s.email fun r => { r with up := r.up + s.up, down := r.down + s.down }) t

/-- The tables after {lit}`collect_stats`. -/
def AgentDb.grow (db : AgentDb) (samples : List Sample) : AgentDb :=
  { db with coreClients := accrue samples db.coreClients }

/-- The bytes of one client. -/
def moved (samples : List Sample) (email : String) : ℕ × ℕ :=
  samples.foldr (fun s m => if email = s.email then (s.up + m.1, s.down + m.2) else m) (0, 0)

/-- What a command of the engine does: the statistics it reads before it stops a
process, its exception, and the state it leaves. -/
structure EngineRun where
  samples : List Sample
  raised : Option Failure
  after : EngineState

/-- Raise, if there is something to raise. -/
def attempt (raised : Option Failure) : Tx Agent Failure Unit :=
  raised.elim (pure ()) Tx.raise

/-- A command of the engine. -/
def runEngine (run : EngineRun) : Tx Agent Failure Unit := do
  Tx.write fun a => ⟨a.db.grow run.samples, run.after⟩
  attempt run.raised

/-! ## The new generation -/

/-- The policy of a client. -/
structure ClientPolicy where
  limitIp : ℤ
  globalIpBlocked : Bool
  globalDeviceBlocked : Bool

/-- A client of an assignment: its name at the Hub, its name here, and its body. -/
structure AssignedClient where
  sourceEmail : String
  mirror : String
  raw : Doc Scalar

/-- An assignment that {lit}`_validated_model` has accepted. -/
structure Assignment where
  sourceInboundId : ℤ
  sourceTag : String
  inbound : Doc Scalar
  clients : List AssignedClient

/-- The result of {lit}`_validated_model`. -/
structure Model where
  assignments : List Assignment
  policies : List (String × ClientPolicy)
  runtimeHash : String

/-- A client with all of its inbounds. -/
structure MergedClient where
  sourceEmail : String
  mirror : String
  raw : Doc Scalar
  ids : List ℤ

/-- One round of the inner loop that fills {lit}`merged`. -/
def mergeClient (source : ℤ) (merged : List MergedClient) (c : AssignedClient) :
    List MergedClient :=
  if merged.any (·.sourceEmail = c.sourceEmail) then
    merged.map fun r =>
      if r.sourceEmail = c.sourceEmail then { r with ids := r.ids ++ [source] } else r
  else merged ++ [⟨c.sourceEmail, c.mirror, c.raw, [source]⟩]

/-- {lit}`merged`. -/
def Model.merged (m : Model) : List MergedClient :=
  m.assignments.foldl (fun merged item =>
    item.clients.foldl (mergeClient item.sourceInboundId) merged) []

/-- {lit}`new_identities`. -/
def Model.identities (m : Model) : List String :=
  m.assignments.flatMap fun item => item.clients.map AssignedClient.mirror

/-- What the environment does in the course of an application: the accepted model, the
lease, the clock, the commands of the engine, and whatever raises. -/
structure Course where
  model : Except Failure Model
  allowed : Bool
  autostart : Bool
  now : ℕ
  rewrite : Doc Scalar → Except Failure (Doc Scalar)
  reconcile : EngineRun
  reconcileGuard : Option Failure
  identities : Option Failure
  collect : EngineRun
  stop : EngineRun
  snapshot : Option Failure
  /-- {lit}`_sync_guard_ports`; the value says that there is a broker. -/
  guardPorts : Except Failure Bool
  materialize : Option Failure
  firstTransaction : Option Failure
  start : EngineRun
  validate : EngineRun
  secondTransaction : Option Failure
  assignmentStatus : Option Failure
  restore : Option Failure
  restoreGuard : Option Failure
  rollback : EngineRun
  recordError : Option Failure

/-- Insert a row under a new key. -/
def addRow {κ ρ : Type} [DecidableEq κ] (table : AgentDb → Table κ ρ)
    (store : AgentDb → Table κ ρ → AgentDb) (k : κ) (r : ρ) : Tx Agent Failure Unit := do
  let old ← Tx.read fun a => (table a.db).get? k
  Tx.require (old.isNone = true) .integrityError
  Tx.write fun a => { a with db := store a.db ((table a.db).insert k r) }

/-- {lit}`counters.get(mirror,(0,0))`. -/
def AgentDb.counters (db : AgentDb) (mirror : String) : ℕ × ℕ :=
  (db.coreClients.get? mirror).elim (0, 0) fun r => (r.up, r.down)

/-- The deletions at the begin of the first transaction. -/
def clearGeneration (payload : Doc Scalar) (db : AgentDb) : AgentDb :=
  { db with
    coreClients := .empty
    coreInbounds := .empty
    coreSections := stateSections.foldl (fun t name =>
      t.upsert name (sectionBody payload name) fun _ => sectionBody payload name) db.coreSections
    owners := db.owners.insert "_hub" ()
    clients := db.clients.filterRows fun _ r => r.owner ≠ "_hub"
    runtimeInbounds := .empty
    runtimeClients := .empty }

/-- The inbound of an assignment. -/
def installInbound (c : Course) (item : Assignment) : Tx Agent Failure Unit := do
  let body ← Tx.ofExcept (c.rewrite item.inbound)
  addRow AgentDb.coreInbounds (fun db t => { db with coreInbounds := t }) item.sourceInboundId body
  addRow AgentDb.runtimeInbounds (fun db t => { db with runtimeInbounds := t })
    item.sourceInboundId ⟨item.sourceInboundId, item.sourceTag, c.now⟩

/-- A client of the new generation, with the counters of the old one. -/
def installClient (c : Course) (m : Model) (counters : String → ℕ × ℕ) (row : MergedClient) :
    Tx Agent Failure Unit := do
  let policy := (m.policies.lookup row.sourceEmail).getD ⟨0, false, false⟩
  let (up, down) := counters row.mirror
  addRow AgentDb.coreClients (fun db t => { db with coreClients := t }) row.mirror
    ⟨row.raw, row.ids.dedup.insertionSort (· ≤ ·), up, down⟩
  let taken ← Tx.read fun a =>
    a.db.runtimeClients.rows.any fun r => r.2.mirrorEmail = row.mirror
  Tx.require (taken = false) .integrityError
  addRow AgentDb.runtimeClients (fun db t => { db with runtimeClients := t }) row.sourceEmail
    ⟨row.mirror, c.now⟩
  addRow AgentDb.clients (fun db t => { db with clients := t }) row.mirror
    ⟨"_hub", policy.limitIp, policy.globalIpBlocked, policy.globalDeviceBlocked⟩

/-- The end of the first transaction: what belongs to clients that are gone. -/
def dropStale (oldMirrors newMirrors : List String) (db : AgentDb) : AgentDb :=
  let kept (email : String) : Bool := email ∉ oldMirrors || email ∈ newMirrors
  { db with
    observations := db.observations.filter fun r => kept r.1
    coreDevices := db.coreDevices.filter fun r => kept r.1 }

/-- The first transaction; {lit}`snap` holds the counters and the old mirrors. -/
def replaceGeneration (c : Course) (payload : Doc Scalar) (m : Model) (snap : AgentDb) :
    Tx Agent Failure Unit :=
  Tx.transaction do
    Tx.write fun a => { a with db := clearGeneration payload a.db }
    m.assignments.forM (installInbound c)
    m.merged.forM (installClient c m snap.counters)
    let oldMirrors := snap.runtimeClients.rows.map fun r => r.2.mirrorEmail
    Tx.write fun a => { a with
      db := dropStale oldMirrors (m.merged.map MergedClient.mirror) a.db }
    attempt c.firstTransaction

/-- The second transaction. -/
def recordApplied (c : Course) (d : Desired) (control : ControlBits) : Tx Agent Failure Unit :=
  Tx.transaction do
    Tx.write fun a => { a with
      db := { a.db with
        control := some control
        state := some ⟨d.revision, d.hash, c.now, ""⟩ } }
    attempt c.secondTransaction

/-! ## The exception handler -/

/-- Run a step of the handler; an exception is only noted. -/
def noting (part : String) (step : Tx Agent Failure Unit) : Tx Agent Failure (List String) :=
  Tx.handle (do step; pure []) fun e => some (pure [part ++ ":" ++ e.name])

/-- {lit}`_restore_snapshot`. -/
def restoreSnapshot (c : Course) (snap : AgentDb) : Tx Agent Failure Unit :=
  Tx.transaction do
    Tx.write fun a => { a with db := { snap with ordered := a.db.ordered } }
    attempt c.restore

/-- {lit}`_restore_snapshot`, if there is a snapshot. -/
def restoreState (c : Course) (snap : Option AgentDb) : Tx Agent Failure (List String) :=
  snap.elim (pure []) fun snap => noting "state" (restoreSnapshot c snap)

/-- Restore the ports of the broker, if there is one. -/
def restoreGuard (c : Course) (guarded : Bool) : Tx Agent Failure (List String) :=
  if guarded then noting "guard" (attempt c.restoreGuard) else pure []

/-- Start the engine again, or stop it. -/
def restoreEngine (c : Course) (wantsRunning : Bool) : Tx Agent Failure (List String) :=
  noting "core" do
    runEngine c.rollback
    Tx.write fun a => { a with engine := { a.engine with wantsRunning := wantsRunning } }

/-- The row that reports an exception. -/
def errorRow (current : Status) (now : ℕ) (detail : String) (old : Option StateRow) : StateRow :=
  match old with
  | none => ⟨current.appliedRevision, current.appliedHash, now, detail⟩
  | some r => { r with updatedAt := now, lastError := detail }

/-- The transaction that reports an exception. -/
def recordFailure (c : Course) (current : Status) (detail : String) : Tx Agent Failure Unit :=
  Tx.transaction do
    Tx.write fun a => { a with
      db := { a.db with state := some (errorRow current c.now detail a.db.state) } }
    attempt c.recordError

/-- The handler of {lit}`_apply_locked`; {lit}`before` is the status and
{lit}`wants_running` from before. -/
def rollback {α : Type} (c : Course) (before : Status × Bool) (snap : Option AgentDb)
    (guarded : Bool) (e : Failure) : Tx Agent Failure α := do
  let stateErrors ← restoreState c snap
  let guardErrors ← restoreGuard c guarded
  let coreErrors ← restoreEngine c before.2
  let errors := stateErrors ++ guardErrors ++ coreErrors
  let detail := (e.message.take 400).toString ++
    if errors = [] then "" else "; rollback failed: " ++ ",".intercalate errors
  recordFailure c before.1 detail
  Tx.raise (if errors = [] then e else .coreError detail)

/-- {lit}`except Exception`. -/
def undo {α : Type} (c : Course) (before : Status × Bool) (snap : Option AgentDb)
    (guarded : Bool) (e : Failure) : Option (Tx Agent Failure α) :=
  some (rollback c before snap guarded e)

/-! ## The application -/

/-- {lit}`control_status`. -/
def Agent.controlBits (a : Agent) (c : Course) : ControlBits :=
  a.db.control.getD ⟨c.autostart, false⟩

/-- {lit}`desired_running`. -/
def Agent.desiredRunning (a : Agent) (c : Course) (d : Desired) : Bool :=
  if a.db.ordered then (a.controlBits c).desiredRunning else payloadRunning d.payload

/-- {lit}`effective_running`. -/
def Agent.effectiveRunning (a : Agent) (c : Course) (d : Desired) : Bool :=
  a.desiredRunning c d && !(a.controlBits c).manualStop && c.allowed

/-- {lit}`keep_running`. -/
def Agent.keepsRunning (a : Agent) (m : Model) (effective : Bool) : Bool :=
  effective && a.engine.running && m.runtimeHash = a.engine.appliedHash &&
    (a.db.coreClients.rows.all fun r => r.1 ∈ m.identities) &&
    m.identities.all fun e => (a.db.coreClients.get? e).isSome

/-- The command that reads the final counters of the old generation: it is stopped, unless it
can go on. -/
def Course.final (c : Course) (m : Model) (effective : Bool) (a : Agent) : EngineRun :=
  if a.keepsRunning m effective then c.collect else c.stop

/-- Stop the old generation, or only read its counters if it can go on. -/
def finishGeneration (c : Course) (m : Model) (effective : Bool) : Tx Agent Failure AgentDb := do
  attempt c.identities
  let a ← Tx.read id
  runEngine (c.final m effective a)
  attempt c.snapshot
  Tx.read Agent.db

/-- The command that starts the new generation, or only validates it. -/
def Course.begin (c : Course) (effective : Bool) : EngineRun :=
  if effective then c.start else c.validate

/-- Everything between the snapshot and the answer. -/
def swapGeneration (c : Course) (d : Desired) (m : Model) (snap : AgentDb) (control : ControlBits)
    (effective : Bool) : Tx Agent Failure Unit := do
  attempt c.materialize
  replaceGeneration c d.payload m snap
  runEngine (c.begin effective)
  recordApplied c d control
  attempt c.assignmentStatus

/-- The answer to an envelope. -/
structure Applied where
  changed : Bool
  appliedRevision : ℤ
  appliedHash : String
deriving DecidableEq, Repr

/-- {lit}`_apply_locked` for a state that is not in force yet. -/
def installDesired (c : Course) (d : Desired) (current : Status) : Tx Agent Failure Applied := do
  let m ← Tx.ofExcept c.model
  let a ← Tx.read id
  let effective := a.effectiveRunning c d
  let before := (current, a.engine.wantsRunning)
  let snap ← Tx.handle (finishGeneration c m effective) (undo c before none false)
  let guarded ← Tx.handle (Tx.ofExcept c.guardPorts) (undo c before (some snap) false)
  Tx.handle (swapGeneration c d m snap ⟨a.desiredRunning c d, (a.controlBits c).manualStop⟩ effective)
    (undo c before (some snap) guarded)
  return ⟨true, d.revision, d.hash⟩

/-- {lit}`_apply_locked` for the state that is in force. -/
def confirmDesired (c : Course) (d : Desired) : Tx Agent Failure Applied := do
  runEngine c.reconcile
  attempt c.reconcileGuard
  attempt c.assignmentStatus
  return ⟨false, d.revision, d.hash⟩

/-- {lit}`_apply_locked`. -/
def applyLocked (codec : Codec) (scope : String) (c : Course) (envelope : Doc Scalar) :
    Tx Agent Failure Applied := do
  let d ← Tx.ofExcept (validateEnvelope codec envelope)
  demandPolicy (payloadNodeId d.payload = scope) "Desired state targets a different Node"
  let current ← Tx.read fun a => a.db.status
  demandPolicy (current.appliedRevision ≤ d.revision) "Refusing stale desired-state revision"
  demandPolicy (d.revision = current.appliedRevision → d.hash = current.appliedHash)
    "Revision already belongs to a different desired state"
  if d.revision = current.appliedRevision ∧ current.lastError = "" then confirmDesired c d
  else installDesired c d current

/-! ## The rules of the steps -/

section Rules

variable {q : Unit → Agent → Prop} {r : Failure → Agent → Prop} {a : Agent}

/-- What the statistics add to a client. -/
theorem get?_accrue (samples : List Sample) (t : Table String CoreClient) (e : String) :
    (accrue samples t).get? e = (t.get? e).map fun row =>
      { row with up := row.up + (moved samples e).1, down := row.down + (moved samples e).2 } := by
  induction samples generalizing t with
  | nil => simp [accrue, moved]
  | cons s samples ih =>
      rw [accrue, List.foldl_cons, ← accrue, ih, Table.get?_update]
      by_cases he : e = s.email
      · cases t.get? e with
        | none => simp [he]
        | some row => simp [moved, he, Nat.add_assoc]
      · simp [moved, he]

/-- No samples add nothing. -/
@[simp]
theorem grow_nil (db : AgentDb) : db.grow [] = db :=
  rfl

/-- Samples that are folded in one after the other are folded in together. -/
@[simp]
theorem grow_grow (db : AgentDb) (l l' : List Sample) :
    (db.grow l).grow l' = db.grow (l ++ l') := by
  simp [AgentDb.grow, accrue]

/-- A step that may fail. -/
@[simp]
theorem wp_attempt (o : Option Failure) :
    (attempt o).wp q r a ↔ (o = none → q () a) ∧ ∀ e, o = some e → r e a := by
  cases o <;> simp [attempt]

/-- The engine adds its samples and leaves its state, whether it raises or not. -/
@[simp]
theorem wp_runEngine (run : EngineRun) :
    (runEngine run).wp q r a ↔
      (run.raised = none → q () ⟨a.db.grow run.samples, run.after⟩) ∧
        ∀ e, run.raised = some e → r e ⟨a.db.grow run.samples, run.after⟩ := by
  simp [runEngine]

/-- A failed part is noted and does not stop the application. -/
@[simp]
theorem wp_noting (part : String) (step : Tx Agent Failure Unit)
    (q : List String → Agent → Prop) :
    (noting part step).wp q r a ↔
      step.wp (fun _ t => q [] t) (fun e t => q [part ++ ":" ++ e.name] t) a := by
  simp [noting]

/-- A row is added where there is none under its key. -/
@[simp]
theorem wp_addRow {κ ρ : Type} [DecidableEq κ] (table : AgentDb → Table κ ρ)
    (store : AgentDb → Table κ ρ → AgentDb) (k : κ) (row : ρ) :
    (addRow table store k row).wp q r a ↔
      ((table a.db).get? k = none →
        q () { a with db := store a.db ((table a.db).insert k row) }) ∧
      ((table a.db).get? k ≠ none → r .integrityError a) := by
  simp [addRow]

end Rules

end Nodes
end DarkXray
