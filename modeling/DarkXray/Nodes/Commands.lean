import Mathlib.Order.Nat
import DarkXray.Policy.Basics

/-!
# Ordered run commands

The Hub keeps one register per Node: the latest run command, its revision, and the
revision that the Node has acknowledged.  The Agent keeps the latest command that
it has accepted and how far it got with it.  The revision orders the commands; a
retry repeats the identity of the command it retries.

Main results:

- Theorem {lit}`record_ok`: the register either stays or takes the next revision.
- Theorem {lit}`fence_ok`: what the Agent accepts, repeats and refuses.
- Theorem {lit}`acknowledges_iff`: what the Hub takes for an acknowledgement.
-/

namespace DarkXray
namespace Nodes

open Library Policy

/-- Run commands. -/
inductive RunAction where
  | start
  | stop
  | restart
deriving DecidableEq, Repr

/-- Revisions are below {lit}`2**63`. -/
def revisionLimit : ℕ := 9223372036854775808

/-- A run command with its identity. -/
structure Command where
  revision : ℕ
  commandId : String
  action : RunAction
deriving DecidableEq, Repr

/-! ## The Hub's register -/

/-- A row of {lit}`remote_node_control`. -/
structure ControlRow where
  command : Command
  appliedRevision : ℕ
  lastError : String
deriving DecidableEq, Repr

/-- {lit}`pending` of {lit}`NodeCommands.status`. -/
def ControlRow.pending (r : ControlRow) : Bool :=
  r.command.revision ≠ r.appliedRevision

/-- {lit}`NodeCommands.record`: a pending command of the same action is retried,
anything else is a new command under the next revision. -/
def record (old : Option ControlRow) (action : RunAction) (uuid : String) :
    Except Failure ControlRow :=
  match old with
  | none => .ok ⟨⟨1, uuid, action⟩, 0, ""⟩
  | some row =>
      if row.command.action = action ∧ row.pending = true then .ok row
      else if revisionLimit ≤ row.command.revision + 1 then
        .error (.policyError "Node command sequence exhausted")
      else .ok ⟨⟨row.command.revision + 1, uuid, action⟩, row.appliedRevision, ""⟩

/-- The command that {lit}`NodeCommands.deliver` sends: the pending one, unless the caller
asks for another identity. -/
def ControlRow.deliverable (r : ControlRow) (expectedCommandId : Option String) :
    Option Command :=
  if expectedCommandId.any (· ≠ r.command.commandId) then none
  else if r.pending then some r.command
  else none

/-- The update of {lit}`NodeCommands.defer`: only the pending identity is annotated. -/
def ControlRow.defer (r : ControlRow) (c : Command) (error : String) : ControlRow :=
  if r.command.revision = c.revision ∧ r.command.commandId = c.commandId ∧ r.pending = true then
    { r with lastError := (error.take 500).toString }
  else r

/-- The update of {lit}`NodeCommands.deliver` after an acknowledgement. -/
def ControlRow.acknowledge (r : ControlRow) (c : Command) : ControlRow :=
  if r.command.revision = c.revision ∧ r.command.commandId = c.commandId then
    { r with appliedRevision := c.revision, lastError := "" }
  else r

/-! ## Messages -/

/-- The body of a control request. -/
structure ControlRequest where
  nodeId : String
  command : Command
deriving DecidableEq, Repr

/-- The answer to a control request; {lit}`running` is the state of the engine. -/
structure ControlAck where
  service : String
  nodeId : String
  revision : ℕ
  commandId : String
  action : RunAction
  applied : Bool
  duplicate : Bool
  running : Bool
deriving DecidableEq, Repr

/-- The command that an answer names. -/
def ControlAck.command (doc : ControlAck) : Command :=
  ⟨doc.revision, doc.commandId, doc.action⟩

/-- The engine state that a command aims at. -/
def RunAction.running : RunAction → Bool
  | .stop => false
  | .start => true
  | .restart => true

/-- The check of {lit}`NodeCommands.deliver` on the answer to its request. -/
def acknowledges (agentId : String) (c : Command) (doc : ControlAck) : Bool :=
  doc.service = "DARK XRAY NODE" && doc.nodeId = agentId && doc.revision = c.revision &&
    doc.commandId = c.commandId && doc.action = c.action && doc.applied &&
    doc.running = c.action.running

/-! ## The Agent's receipt -/

/-- How far the Agent got with the command it accepted last. -/
inductive Phase where
  | pending
  | applied
  | failed
deriving DecidableEq, Repr

/-- A row of {lit}`node_runtime_commands`. -/
structure Receipt where
  command : Command
  phase : Phase
  lastError : String
deriving DecidableEq, Repr

/-- The checks of {lit}`ordered_command` on the body of a request. -/
def checkEnvelope (scope : String) (r : ControlRequest) : Except Failure Unit := do
  ensure (r.nodeId = scope) (.policyError "Command targets a different Node")
  ensure (0 < r.command.revision ∧ r.command.revision < revisionLimit)
    (.policyError "Invalid command revision")
  ensure (hexDigits 32 r.command.commandId = true) (.policyError "Invalid command identity")

/-- What {lit}`ordered_command` does with a request that it does not refuse. -/
inductive Admission where
  /-- Repeat the acknowledgement of an applied command. -/
  | repeated (receipt : Receipt)
  /-- Record the command as pending and execute it. -/
  | execute
deriving DecidableEq, Repr

/-- The fence of {lit}`ordered_command` against the receipt of the last command. -/
def fence (previous : Option Receipt) (c : Command) : Except Failure Admission :=
  match previous with
  | none => .ok .execute
  | some p =>
      if c.revision < p.command.revision then
        .error (.coreError "Refusing stale Node command revision")
      else if c.revision = p.command.revision then
        if c.commandId ≠ p.command.commandId ∨ c.action ≠ p.command.action then
          .error (.coreError "Command revision belongs to a different identity/action")
        else if p.phase = .applied then .ok (.repeated p)
        else .ok .execute
      else if c.commandId = p.command.commandId then
        .error (.coreError "Command identity already belongs to a different revision")
      else .ok .execute

/-- {lit}`ordered_command` up to the execution. -/
def orderedCommand (scope : String) (previous : Option Receipt) (r : ControlRequest) :
    Except Failure Admission := do
  checkEnvelope scope r
  fence previous r.command

/-- The update of the receipt after the execution of a command. -/
def Receipt.finish (p : Receipt) (c : Command) (phase : Phase) (error : String) : Receipt :=
  if p.command.revision = c.revision ∧ p.command.commandId = c.commandId then
    { p with phase := phase, lastError := (error.take 500).toString }
  else p

/-- {lit}`_command_ack`. -/
def commandAck (scope : String) (p : Receipt) (running duplicate : Bool) : ControlAck where
  service := "DARK XRAY NODE"
  nodeId := scope
  revision := p.command.revision
  commandId := p.command.commandId
  action := p.command.action
  applied := p.phase = .applied && running = p.command.action.running
  duplicate := duplicate
  running := running

/-! ## What the operations decide -/

/-- The register keeps its command or takes the next revision. -/
theorem record_ok {old : Option ControlRow} {action : RunAction} {uuid : String} {row : ControlRow}
    (h : record old action uuid = .ok row) :
    old = some row ∨
      (row.command.revision = old.elim 0 (·.command.revision) + 1 ∧
        row.appliedRevision = old.elim 0 ControlRow.appliedRevision) := by
  cases old with
  | none =>
      cases h
      exact .inr ⟨rfl, rfl⟩
  | some r =>
      simp only [record] at h
      split at h
      · cases h
        exact .inl rfl
      · split at h
        · cases h
        · cases h
          exact .inr ⟨rfl, rfl⟩

/-- An accepted command is either the applied one again, or not older than the last
one and, under its revision, the same one. -/
theorem fence_ok {previous : Option Receipt} {c : Command} {a : Admission}
    (h : fence previous c = .ok a) :
    (∃ p, previous = some p ∧ a = .repeated p ∧ p.phase = .applied ∧ p.command = c) ∨
      (a = .execute ∧ ∀ p, previous = some p → p.command.revision ≤ c.revision ∧
        (p.command.revision = c.revision → p.command = c ∧ p.phase ≠ .applied)) := by
  cases previous with
  | none =>
      cases h
      exact .inr ⟨rfl, by simp⟩
  | some p =>
      simp only [fence] at h
      split at h <;> rename_i hstale
      · cases h
      · split at h <;> rename_i hsame
        · split at h <;> rename_i hother
          · cases h
          · rw [not_or, not_not, not_not] at hother
            have hcommand : p.command = c := by
              rcases p with ⟨⟨revision, commandId, action⟩, phase, lastError⟩
              rcases c with ⟨revision', commandId', action'⟩
              simp only at hsame hother
              rw [hsame, hother.1, hother.2]
            split at h <;> rename_i hphase
            · cases h
              exact .inl ⟨p, rfl, rfl, hphase, hcommand⟩
            · cases h
              refine .inr ⟨rfl, ?_⟩
              rintro _ ⟨⟩
              exact ⟨hsame.ge, fun _ => ⟨hcommand, hphase⟩⟩
        · split at h
          · cases h
          · cases h
            refine .inr ⟨rfl, ?_⟩
            rintro _ ⟨⟩
            exact ⟨not_lt.mp hstale, fun heq => absurd heq.symm hsame⟩

/-- A request that is not refused passes the fence. -/
theorem orderedCommand_ok {scope : String} {previous : Option Receipt} {r : ControlRequest}
    {a : Admission} (h : orderedCommand scope previous r = .ok a) :
    fence previous r.command = .ok a := by
  obtain ⟨_, _, hfence⟩ := except_bind_ok_iff.mp h
  exact hfence

@[simp]
theorem commandAck_command (scope : String) (p : Receipt) (running duplicate : Bool) :
    (commandAck scope p running duplicate).command = p.command :=
  rfl

/-- Only the answer for an applied receipt says that the command is applied. -/
theorem commandAck_applied {scope : String} {p : Receipt} {running duplicate : Bool}
    (h : (commandAck scope p running duplicate).applied = true) : p.phase = .applied := by
  simp only [commandAck, Bool.and_eq_true, decide_eq_true_eq] at h
  exact h.1

/-- The end of a command is recorded in its own receipt. -/
@[simp]
theorem Receipt.finish_own (c : Command) (phase phase' : Phase) (old error : String) :
    (⟨c, phase, old⟩ : Receipt).finish c phase' error =
      ⟨c, phase', (error.take 500).toString⟩ :=
  if_pos ⟨rfl, rfl⟩

/-- An acknowledgement names exactly the command and says that it is applied. -/
theorem acknowledges_iff {agentId : String} {c : Command} {doc : ControlAck} :
    acknowledges agentId c doc = true ↔
      doc.service = "DARK XRAY NODE" ∧ doc.nodeId = agentId ∧
        doc.command = c ∧ doc.applied = true ∧ doc.running = c.action.running := by
  rcases c with ⟨revision, commandId, action⟩
  simp only [acknowledges, ControlAck.command, Bool.and_eq_true, decide_eq_true_eq,
    Command.mk.injEq]
  constructor
  · rintro ⟨⟨⟨⟨⟨⟨h1, h2⟩, h3⟩, h4⟩, h5⟩, h6⟩, h7⟩
    exact ⟨h1, h2, ⟨h3, h4, h5⟩, h6, h7⟩
  · rintro ⟨h1, h2, ⟨h3, h4, h5⟩, h6, h7⟩
    exact ⟨⟨⟨⟨⟨⟨h1, h2⟩, h3⟩, h4⟩, h5⟩, h6⟩, h7⟩

end Nodes
end DarkXray
