import DarkXray.Library.Runs
import DarkXray.Nodes.Commands

/-!
# Run control over a lossy network

One Hub and one installation of its Agent.  Each delivery of the Hub reads the
register, sends a request and waits for an answer; any number of them run at a
time.  Requests and answers may be lost, delayed, duplicated and reordered: every
message that was ever sent may be taken at any time, any number of times, or
never.  The Agent holds the engine lock from the fence of a command to its
receipt, but its process may die in between.

Main results:

- Theorem {lit}`RunControl.Inv.step`: the invariant of the register, the receipt and
  the answers.
- Theorem {lit}`RunControl.Later.step`: a step never takes the Agent back.
- Theorem {lit}`ordered_control_safe`: both, for every run.
-/

namespace DarkXray
namespace Nodes

open Library Policy

/-! ## The system -/

/-- The Hub's register and deliveries, the messages that were ever sent, and the
Agent.  {lit}`executed` lists the commands that reached {lit}`_command_locked` and
{lit}`applied` the commands whose receipt became applied, oldest first. -/
structure RunControl where
  hub : Option ControlRow
  delivering : List Command
  requests : List ControlRequest
  receipt : Option Receipt
  executing : Option Command
  acks : List ControlAck
  executed : List Command
  applied : List Command
deriving DecidableEq, Repr

/-- What can happen. -/
inductive ControlEvent where
  /-- {lit}`record`: an administrator asks for an action. -/
  | record (action : RunAction) (uuid : String)
  /-- {lit}`deliver` reads the register and sends its request. -/
  | deliver (expectedCommandId : Option String)
  /-- {lit}`deliver` receives an answer that acknowledges its command. -/
  | acknowledge (command : Command) (ack : ControlAck)
  /-- {lit}`deliver` gives up on an answer: {lit}`defer`. -/
  | defer (command : Command) (error : String)
  /-- {lit}`ordered_command` takes a request; {lit}`running` is the engine's state. -/
  | command (request : ControlRequest) (running : Bool)
  /-- {lit}`_command_locked` leaves the engine in a state or raises, and the answer
  reads the engine's state once more. -/
  | finish (result : Except String Bool) (running : Bool)
  /-- The Agent's process dies, or cannot write the receipt. -/
  | crash

namespace RunControl

/-- A fresh Hub and a fresh Agent. -/
def fresh : RunControl where
  hub := none
  delivering := []
  requests := []
  receipt := none
  executing := none
  acks := []
  executed := []
  applied := []

/-- Installation that the Hub addresses, and scope of the Agent. -/
structure Ends where
  agentId : String
  scope : String
deriving DecidableEq, Repr

/-- The end of a delivery: an update of the register. -/
def settle (w : RunControl) (c : Command) (update : ControlRow → ControlRow) : RunControl :=
  { w with
    delivering := w.delivering.erase c
    hub := w.hub.map update }

/-- The end of {lit}`ordered_command`: the receipt, and the answer if nothing is raised. -/
def finish (scope : String) (w : RunControl) (p : Receipt) (c : Command)
    (result : Except String Bool) (running : Bool) : RunControl :=
  match result with
  | .error e => { w with executing := none, receipt := some (p.finish c .failed e) }
  | .ok state =>
      if state = c.action.running then
        let receipt := p.finish c .applied ""
        { w with
            executing := none
            receipt := some receipt
            acks := commandAck scope receipt running false :: w.acks
            applied := w.applied ++ [c] }
      else
        { w with
            executing := none
            receipt := some (p.finish c .failed "Xray did not reach the commanded state") }

/-- The state after an event, if the event can happen. -/
def next (ends : Ends) (w : RunControl) : ControlEvent → Option RunControl
  | .record action uuid =>
      match Nodes.record w.hub action uuid with
      | .ok row => some { w with hub := some row }
      | .error _ => none
  | .deliver expectedCommandId => do
      let row ← w.hub
      let c ← row.deliverable expectedCommandId
      return { w with
        delivering := c :: w.delivering
        requests := ⟨ends.agentId, c⟩ :: w.requests }
  | .acknowledge c ack =>
      if c ∈ w.delivering ∧ ack ∈ w.acks ∧ acknowledges ends.agentId c ack then
        some (w.settle c fun row => row.acknowledge c)
      else none
  | .defer c error =>
      if c ∈ w.delivering then
        some (w.settle c fun row => row.defer c error)
      else none
  | .command request running =>
      if request ∈ w.requests ∧ w.executing = none then
        match orderedCommand ends.scope w.receipt request with
        | .ok (.repeated p) =>
            some { w with acks := commandAck ends.scope p running true :: w.acks }
        | .ok .execute =>
            some { w with
              receipt := some ⟨request.command, .pending, ""⟩
              executing := some request.command
              executed := w.executed ++ [request.command] }
        | .error _ => none
      else none
  | .finish result running => do
      let c ← w.executing
      let p ← w.receipt
      return w.finish ends.scope p c result running
  | .crash => some { w with executing := none }

/-- One step of the system. -/
def Step (ends : Ends) (w : RunControl) (event : ControlEvent) (w' : RunControl) : Prop :=
  w.next ends event = some w'

/-! ## The invariant -/

/-- What holds in every reachable state. -/
structure Inv (w : RunControl) : Prop where
  /-- The command under execution has the receipt. -/
  executing : ∀ c, w.executing = some c → ∃ error, w.receipt = some ⟨c, .pending, error⟩
  /-- An applied receipt is logged. -/
  receipt : ∀ p, w.receipt = some p → p.phase = .applied → p.command ∈ w.applied
  /-- An answer that says applied is about a logged command. -/
  acks : ∀ ack ∈ w.acks, ack.applied = true → ack.command ∈ w.applied
  /-- A delivery is about the register's command or an older one. -/
  delivering : ∀ c ∈ w.delivering, ∃ row, w.hub = some row ∧
    (c = row.command ∨ c.revision < row.command.revision)
  /-- The register acknowledges an older revision or a logged command. -/
  hub : ∀ row, w.hub = some row →
    row.appliedRevision < row.command.revision ∨
      row.appliedRevision = row.command.revision ∧ row.command ∈ w.applied

theorem inv_fresh : fresh.Inv := by
  constructor <;> simp [fresh]

variable {ends : Ends} {w w' : RunControl} {row : ControlRow} {p : Receipt} {c : Command}

/-- A new register row leaves the deliveries behind and is not acknowledged. -/
theorem Inv.record (h : w.Inv) {action : RunAction} {uuid : String}
    (hrow : Nodes.record w.hub action uuid = .ok row) : ({ w with hub := some row }).Inv := by
  rcases record_ok hrow with hsame | ⟨hrevision, happlied⟩
  · rw [← hsame]
    exact h
  · have hold : ∀ old, w.hub = some old → old.command.revision < row.command.revision ∧
        row.appliedRevision = old.appliedRevision := by
      intro old hold
      simp only [hold, Option.elim_some] at hrevision happlied
      exact ⟨by omega, happlied⟩
    refine ⟨h.executing, h.receipt, h.acks, ?_, ?_⟩
    · intro c hc
      obtain ⟨old, hhub, hle⟩ := h.delivering c hc
      refine ⟨row, rfl, .inr ?_⟩
      have hlt := (hold old hhub).1
      rcases hle with rfl | hle
      · exact hlt
      · exact hle.trans hlt
    · rintro _ ⟨⟩
      left
      cases hhub : w.hub with
      | none =>
          simp only [hhub, Option.elim_none] at hrevision happlied
          omega
      | some old =>
          obtain ⟨hlt, heq⟩ := hold old hhub
          rcases h.hub old hhub with hle | ⟨hle, -⟩ <;> omega

/-- An update of the register that keeps its command keeps what is known about the
deliveries. -/
theorem Inv.delivering_map (h : w.Inv) {f : ControlRow → ControlRow}
    (hf : ∀ row, (f row).command = row.command) {cs : List Command}
    (hcs : ∀ c ∈ cs, c ∈ w.delivering) :
    ∀ c ∈ cs, ∃ row, w.hub.map f = some row ∧
      (c = row.command ∨ c.revision < row.command.revision) := by
  intro c hc
  obtain ⟨row, hhub, hle⟩ := h.delivering c (hcs c hc)
  exact ⟨f row, by rw [hhub, Option.map_some], by rwa [hf]⟩

/-- An acknowledgement of the register's command is about a logged command; any other
leaves the register as it is. -/
theorem Inv.acknowledge (h : w.Inv) {ack : ControlAck} (hc : c ∈ w.delivering)
    (hack : ack ∈ w.acks) (hok : acknowledges ends.agentId c ack = true) :
    (w.settle c fun row => row.acknowledge c).Inv := by
  obtain ⟨-, -, hcommand, happlied, -⟩ := acknowledges_iff.mp hok
  have hlogged : c ∈ w.applied := hcommand ▸ h.acks ack hack happlied
  refine ⟨h.executing, h.receipt, h.acks, ?_, ?_⟩
  · exact h.delivering_map (fun row => by simp only [ControlRow.acknowledge]; split <;> rfl)
      fun _ => List.mem_of_mem_erase
  · intro row hrow
    obtain ⟨old, hold, rfl⟩ := Option.map_eq_some_iff.mp hrow
    by_cases hcurrent : old.command.revision = c.revision ∧ old.command.commandId = c.commandId
    · obtain ⟨old', hold', hle⟩ := h.delivering c hc
      obtain rfl : old = old' := Option.some.inj (hold.symm.trans hold')
      have hc : c = old.command := hle.resolve_right fun hlt => by omega
      rw [ControlRow.acknowledge, if_pos hcurrent]
      exact .inr ⟨hcurrent.1.symm, hc ▸ hlogged⟩
    · rw [ControlRow.acknowledge, if_neg hcurrent]
      exact h.hub old hold

/-- A diagnosis changes neither the register's command nor its acknowledgement. -/
theorem Inv.defer (h : w.Inv) (c : Command) (error : String) :
    (w.settle c fun row => row.defer c error).Inv := by
  have hkeeps : ∀ row : ControlRow, (row.defer c error).command = row.command ∧
      (row.defer c error).appliedRevision = row.appliedRevision := by
    intro row
    simp only [ControlRow.defer]
    split <;> exact ⟨rfl, rfl⟩
  refine ⟨h.executing, h.receipt, h.acks, ?_, ?_⟩
  · exact h.delivering_map (fun row => (hkeeps row).1) fun _ => List.mem_of_mem_erase
  · intro row hrow
    obtain ⟨old, hold, rfl⟩ := Option.map_eq_some_iff.mp hrow
    rw [(hkeeps old).1, (hkeeps old).2]
    exact h.hub old hold

/-- The answer for an applied receipt is about a logged command. -/
theorem Inv.answer (h : w.Inv) (hp : w.receipt = some p) (running duplicate : Bool) :
    ({ w with acks := commandAck ends.scope p running duplicate :: w.acks }).Inv := by
  refine ⟨h.executing, h.receipt, ?_, h.delivering, h.hub⟩
  intro ack hack happlied
  rcases List.mem_cons.mp hack with rfl | hack
  · exact h.receipt p hp (commandAck_applied happlied)
  · exact h.acks ack hack happlied

/-- An accepted command has a pending receipt before it is executed. -/
theorem Inv.execute (h : w.Inv) (c : Command) :
    ({ w with
        receipt := some ⟨c, .pending, ""⟩
        executing := some c
        executed := w.executed ++ [c] }).Inv := by
  refine ⟨?_, ?_, h.acks, h.delivering, h.hub⟩
  · rintro _ ⟨⟩
    exact ⟨"", rfl⟩
  · rintro _ ⟨⟩ happlied
    cases happlied

/-- A failed execution leaves a failed receipt. -/
theorem Inv.failed (h : w.Inv) (c : Command) (error : String) :
    ({ w with executing := none, receipt := some ⟨c, .failed, error⟩ }).Inv := by
  refine ⟨by simp, ?_, h.acks, h.delivering, h.hub⟩
  rintro _ ⟨⟩ happlied
  cases happlied

/-- A completed execution is logged before it is answered. -/
theorem Inv.completed (h : w.Inv) (c : Command) (error : String) (running : Bool) :
    ({ w with
        executing := none
        receipt := some ⟨c, .applied, error⟩
        acks := commandAck ends.scope ⟨c, .applied, error⟩ running false :: w.acks
        applied := w.applied ++ [c] }).Inv := by
  have hkept : ∀ d ∈ w.applied, d ∈ w.applied ++ [c] := fun d hd => List.mem_append_left _ hd
  have hnew : c ∈ w.applied ++ [c] := List.mem_append_right _ (List.mem_singleton_self c)
  refine ⟨by simp, ?_, ?_, h.delivering, ?_⟩
  · rintro _ ⟨⟩ -
    exact hnew
  · intro ack hack happlied
    rcases List.mem_cons.mp hack with rfl | hack
    · exact hnew
    · exact hkept _ (h.acks ack hack happlied)
  · intro row hrow
    exact (h.hub row hrow).imp id fun ⟨heq, hlogged⟩ => ⟨heq, hkept _ hlogged⟩

/-- What the end of {lit}`ordered_command` leaves behind. -/
theorem finish_cases (hc : w.executing = some c) (h : w.Inv) {result : Except String Bool}
    {running : Bool} (hstep : w.next ends (.finish result running) = some w') :
    (∃ error, w' = { w with executing := none, receipt := some ⟨c, .failed, error⟩ }) ∨
      (∃ error, w' = { w with
        executing := none
        receipt := some ⟨c, .applied, error⟩
        acks := commandAck ends.scope ⟨c, .applied, error⟩ running false :: w.acks
        applied := w.applied ++ [c] }) := by
  obtain ⟨error, hp⟩ := h.executing c hc
  simp only [next, hc, hp, Option.bind_eq_bind, Option.bind_some, Option.pure_def,
    Option.some.injEq] at hstep
  subst hstep
  cases result with
  | error e =>
      left
      simp only [finish, Receipt.finish_own]
      exact ⟨_, rfl⟩
  | ok state =>
      by_cases hstate : state = c.action.running
      · right
        simp only [finish, if_pos hstate, Receipt.finish_own]
        exact ⟨_, rfl⟩
      · left
        simp only [finish, if_neg hstate, Receipt.finish_own]
        exact ⟨_, rfl⟩

/-- Everything that a step can do. -/
theorem step_cases {event : ControlEvent} (h : w.Inv) (hstep : Step ends w event w') :
    (∃ action uuid row, Nodes.record w.hub action uuid = .ok row ∧
        w' = { w with hub := some row }) ∨
      (∃ row c, w.hub = some row ∧ row.command = c ∧
        w' = { w with
          delivering := c :: w.delivering
          requests := ⟨ends.agentId, c⟩ :: w.requests }) ∨
      (∃ c ack, c ∈ w.delivering ∧ ack ∈ w.acks ∧ acknowledges ends.agentId c ack = true ∧
        w' = w.settle c fun row => row.acknowledge c) ∨
      (∃ c error, w' = w.settle c fun row => row.defer c error) ∨
      (∃ p running, w.receipt = some p ∧
        w' = { w with acks := commandAck ends.scope p running true :: w.acks }) ∨
      (∃ c, fence w.receipt c = .ok .execute ∧ w.executing = none ∧
        w' = { w with
          receipt := some ⟨c, .pending, ""⟩
          executing := some c
          executed := w.executed ++ [c] }) ∨
      (∃ c error, w.executing = some c ∧
        w' = { w with executing := none, receipt := some ⟨c, .failed, error⟩ }) ∨
      (∃ c error running, w.executing = some c ∧
        w' = { w with
          executing := none
          receipt := some ⟨c, .applied, error⟩
          acks := commandAck ends.scope ⟨c, .applied, error⟩ running false :: w.acks
          applied := w.applied ++ [c] }) ∨
      w' = { w with executing := none } := by
  cases event with
  | record action uuid =>
      simp only [Step, next] at hstep
      split at hstep
      · rename_i row hrow
        cases hstep
        exact .inl ⟨action, uuid, row, hrow, rfl⟩
      · cases hstep
  | deliver expectedCommandId =>
      right; left
      simp only [Step, next, Option.bind_eq_bind, Option.bind_eq_some_iff, Option.pure_def,
        Option.some.injEq] at hstep
      obtain ⟨row, hrow, c, hc, rfl⟩ := hstep
      refine ⟨row, c, hrow, ?_, rfl⟩
      simp only [ControlRow.deliverable] at hc
      split at hc
      · cases hc
      · split at hc <;> cases hc
        rfl
  | acknowledge c ack =>
      right; right; left
      simp only [Step, next] at hstep
      split at hstep <;> cases hstep
      rename_i hok
      exact ⟨c, ack, hok.1, hok.2.1, hok.2.2, rfl⟩
  | defer c error =>
      right; right; right; left
      simp only [Step, next] at hstep
      split at hstep <;> cases hstep
      exact ⟨c, error, rfl⟩
  | command request running =>
      right; right; right; right
      simp only [Step, next] at hstep
      split at hstep
      · rename_i hfree
        split at hstep
        · rename_i p hp
          cases hstep
          rcases fence_ok (orderedCommand_ok hp) with ⟨q, hq, ⟨⟩, -, -⟩ | ⟨⟨⟩, -⟩
          exact .inl ⟨p, running, hq, rfl⟩
        · rename_i hexecute
          cases hstep
          exact .inr (.inl ⟨request.command, orderedCommand_ok hexecute, hfree.2, rfl⟩)
        · cases hstep
      · cases hstep
  | finish result running =>
      right; right; right; right; right; right
      cases hc : w.executing with
      | none => simp [Step, next, hc] at hstep
      | some c =>
          rcases finish_cases hc h hstep with ⟨error, hw⟩ | ⟨error, hw⟩
          · exact .inl ⟨c, error, rfl, hw⟩
          · exact .inr (.inl ⟨c, error, running, rfl, hw⟩)
  | crash =>
      right; right; right; right; right; right; right; right
      exact (Option.some.inj hstep).symm

/-- Every step keeps the invariant. -/
theorem Inv.step {event : ControlEvent} (h : w.Inv) (hstep : Step ends w event w') : w'.Inv := by
  rcases step_cases h hstep with ⟨_, _, row, hrow, rfl⟩ | ⟨row, c, hrow, hc, rfl⟩ |
    ⟨c, ack, hc, hack, hok, rfl⟩ | ⟨c, error, rfl⟩ | ⟨p, running, hp, rfl⟩ | ⟨c, -, -, rfl⟩ |
    ⟨c, error, -, rfl⟩ | ⟨c, error, running, -, rfl⟩ | rfl
  · exact h.record hrow
  · refine ⟨h.executing, h.receipt, h.acks, ?_, h.hub⟩
    intro d hd
    rcases List.mem_cons.mp hd with rfl | hd
    · exact ⟨row, hrow, .inl hc.symm⟩
    · exact h.delivering d hd
  · exact h.acknowledge hc hack hok
  · exact h.defer c error
  · exact h.answer hp running true
  · exact h.execute c
  · exact h.failed c error
  · exact h.completed c error running
  · exact ⟨by simp, h.receipt, h.acks, h.delivering, h.hub⟩

end RunControl

/-! ## The Agent never goes back -/

/-- A receipt that may follow: one of a newer command, or of the same command, which
stays applied. -/
def Receipt.Before (p q : Receipt) : Prop :=
  p.command.revision < q.command.revision ∨
    p.command = q.command ∧ (p.phase = .applied → q.phase = .applied)

/-- A command that may reach the engine after a receipt. -/
def Receipt.Admits (p : Receipt) (c : Command) : Prop :=
  p.command.revision < c.revision ∨ p.command = c ∧ p.phase ≠ .applied

theorem Receipt.Before.refl (p : Receipt) : p.Before p :=
  .inr ⟨rfl, id⟩

theorem Receipt.Before.trans {p q r : Receipt} (hpq : p.Before q) (hqr : q.Before r) :
    p.Before r := by
  rcases hpq with hpq | ⟨hpq, hkeep⟩
  · rcases hqr with hqr | ⟨hqr, -⟩
    · exact .inl (hpq.trans hqr)
    · exact .inl (hqr ▸ hpq)
  · rcases hqr with hqr | ⟨hqr, hkeep'⟩
    · exact .inl (hpq ▸ hqr)
    · exact .inr ⟨hpq.trans hqr, hkeep' ∘ hkeep⟩

/-- What a later receipt admits, an earlier one admits as well. -/
theorem Receipt.Before.admits {p q : Receipt} {c : Command} (hpq : p.Before q)
    (hc : q.Admits c) : p.Admits c := by
  rcases hpq with hpq | ⟨hpq, hkeep⟩
  · rcases hc with hc | ⟨rfl, -⟩
    · exact .inl (hpq.trans hc)
    · exact .inl hpq
  · rcases hc with hc | ⟨rfl, hphase⟩
    · exact .inl (hpq ▸ hc)
    · exact .inr ⟨hpq, hphase ∘ hkeep⟩

/-- The fence executes what the receipt admits. -/
theorem fence_admits {p : Receipt} {c : Command} (h : fence (some p) c = .ok .execute) :
    p.Admits c := by
  rcases fence_ok h with ⟨_, _, ⟨⟩, _⟩ | ⟨-, hp⟩
  obtain ⟨hle, hsame⟩ := hp p rfl
  rcases hle.lt_or_eq with hlt | heq
  · exact .inl hlt
  · exact .inr (hsame heq)

namespace RunControl

variable {ends : Ends} {w w' u : RunControl}

/-- The Agent keeps its place in the order, and executes nothing that is behind it. -/
structure Later (w w' : RunControl) : Prop where
  receipt : ∀ p, w.receipt = some p → ∃ q, w'.receipt = some q ∧ p.Before q
  executed : ∃ l, w'.executed = w.executed ++ l ∧
    ∀ p, w.receipt = some p → ∀ c ∈ l, p.Admits c

theorem Later.refl (w : RunControl) : w.Later w :=
  ⟨fun p hp => ⟨p, hp, .refl p⟩, [], by simp, by simp⟩

theorem Later.trans (h : w.Later w') (h' : w'.Later u) : w.Later u := by
  obtain ⟨l, hl, hadmits⟩ := h.executed
  obtain ⟨l', hl', hadmits'⟩ := h'.executed
  constructor
  · intro p hp
    obtain ⟨q, hq, hpq⟩ := h.receipt p hp
    obtain ⟨r, hr, hqr⟩ := h'.receipt q hq
    exact ⟨r, hr, hpq.trans hqr⟩
  · refine ⟨l ++ l', by rw [hl', hl, List.append_assoc], ?_⟩
    intro p hp c hc
    rcases List.mem_append.mp hc with hc | hc
    · exact hadmits p hp c hc
    · obtain ⟨q, hq, hpq⟩ := h.receipt p hp
      exact hpq.admits (hadmits' q hq c hc)

/-- A step that leaves the receipt and the log of executions alone. -/
theorem Later.of_eq (hreceipt : w'.receipt = w.receipt) (hexecuted : w'.executed = w.executed) :
    w.Later w' :=
  ⟨fun p hp => ⟨p, by rw [hreceipt, hp], .refl p⟩, [], by rw [hexecuted, List.append_nil],
    by simp⟩

/-- The end of the execution of a command. -/
theorem Later.of_executing (h : w.Inv) {c : Command} (hc : w.executing = some c)
    {q : Receipt} (hq : w'.receipt = some q) (hcommand : q.command = c)
    (hexecuted : w'.executed = w.executed) : w.Later w' := by
  obtain ⟨error, hp⟩ := h.executing c hc
  refine ⟨?_, [], by rw [hexecuted, List.append_nil], by simp⟩
  intro p hp'
  obtain rfl := Option.some.inj (hp.symm.trans hp')
  exact ⟨q, hq, .inr ⟨hcommand.symm, by simp⟩⟩

/-- Every step keeps the Agent's place in the order. -/
theorem Later.step {event : ControlEvent} (h : w.Inv) (hstep : Step ends w event w') :
    w.Later w' := by
  rcases step_cases h hstep with ⟨_, _, row, -, rfl⟩ | ⟨row, c, -, -, rfl⟩ |
    ⟨c, ack, -, -, -, rfl⟩ | ⟨c, error, rfl⟩ | ⟨p, running, -, rfl⟩ | ⟨c, hfence, -, rfl⟩ |
    ⟨c, error, hc, rfl⟩ | ⟨c, error, running, hc, rfl⟩ | rfl
  · exact .of_eq rfl rfl
  · exact .of_eq rfl rfl
  · exact .of_eq rfl rfl
  · exact .of_eq rfl rfl
  · exact .of_eq rfl rfl
  · constructor
    · intro p hp
      refine ⟨_, rfl, ?_⟩
      rcases fence_admits (hp ▸ hfence) with hlt | ⟨rfl, hphase⟩
      · exact .inl hlt
      · exact .inr ⟨rfl, fun happlied => absurd happlied hphase⟩
    · refine ⟨[c], rfl, fun p hp d hd => ?_⟩
      rw [List.mem_singleton.mp hd]
      exact fence_admits (hp ▸ hfence)
  · exact .of_executing h hc rfl rfl rfl
  · exact .of_executing h hc rfl rfl rfl
  · exact .of_eq rfl rfl

/-- The receipt says that a command is applied. -/
def Recorded (w : RunControl) (c : Command) : Prop :=
  ∃ p, w.receipt = some p ∧ p.command = c ∧ p.phase = .applied

/-- Only a receipt that becomes applied is logged. -/
theorem applied_step {event : ControlEvent} {c : Command} (h : w.Inv)
    (hstep : Step ends w event w') (hc : c ∈ w'.applied) : c ∈ w.applied ∨ w'.Recorded c := by
  rcases step_cases h hstep with ⟨_, _, row, -, rfl⟩ | ⟨row, d, -, -, rfl⟩ |
    ⟨d, ack, -, -, -, rfl⟩ | ⟨d, error, rfl⟩ | ⟨p, running, -, rfl⟩ | ⟨d, -, -, rfl⟩ |
    ⟨d, error, -, rfl⟩ | ⟨d, error, running, -, rfl⟩ | rfl
  case inr.inr.inr.inr.inr.inr.inr.inl =>
    rcases List.mem_append.mp hc with hc | hc
    · exact .inl hc
    · exact .inr ⟨_, rfl, (List.mem_singleton.mp hc).symm, rfl⟩
  all_goals exact .inl hc

/-- A logged command once had an applied receipt. -/
theorem applied_recorded {es : List ControlEvent} {c : Command}
    (hrun : Run (Step ends) fresh es w) (hc : c ∈ w.applied) :
    ∃ fs u gs, Run (Step ends) fresh fs u ∧ Run (Step ends) u gs w ∧ u.Recorded c := by
  apply hrun.earlier inv_fresh (fun _ _ _ => Inv.step) (L := fun w c => c ∈ w.applied)
  · exact List.not_mem_nil
  · exact fun _ _ _ => applied_step
  · exact hc

end RunControl

open RunControl

/-- For one installation, over every run: the Agent's revision never decreases and
never changes its command; what reaches the engine after a receipt is not older than
it, and newer than it if it is applied; and the register says applied only if the
Agent recorded exactly the register's command as applied before. -/
theorem ordered_control_safe {ends : Ends} {es es' : List ControlEvent} {w w' : RunControl}
    (hrun : Run (Step ends) fresh es w) (hlater : Run (Step ends) w es' w') :
    (∀ p, w.receipt = some p → ∃ q, w'.receipt = some q ∧
        p.command.revision ≤ q.command.revision ∧
        (p.command.revision = q.command.revision → p.command = q.command)) ∧
      (∃ l, w'.executed = w.executed ++ l ∧ ∀ p, w.receipt = some p → ∀ c ∈ l,
        p.command.revision ≤ c.revision ∧
        (p.phase = .applied → p.command.revision ≠ c.revision)) ∧
      (∀ row, w'.hub = some row → row.command.revision = row.appliedRevision →
        ∃ fs u gs p, Run (Step ends) fresh fs u ∧ Run (Step ends) u gs w' ∧
          u.receipt = some p ∧ p.command = row.command ∧ p.phase = .applied) := by
  have hinv : w.Inv := hrun.invariant inv_fresh fun _ _ _ => Inv.step
  have hthrough : w.Later w' :=
    hlater.related hinv (fun _ _ _ => Inv.step) Later.refl (fun _ _ _ => Later.trans)
      fun _ _ _ => Later.step
  refine ⟨?_, ?_, ?_⟩
  · intro p hp
    obtain ⟨q, hq, hpq⟩ := hthrough.receipt p hp
    refine ⟨q, hq, ?_, ?_⟩
    · rcases hpq with hlt | ⟨hsame, -⟩
      · exact hlt.le
      · rw [hsame]
    · intro heq
      rcases hpq with hlt | ⟨hsame, -⟩
      · exact absurd heq hlt.ne
      · exact hsame
  · obtain ⟨l, hl, hadmits⟩ := hthrough.executed
    refine ⟨l, hl, fun p hp c hc => ?_⟩
    rcases hadmits p hp c hc with hlt | ⟨rfl, hphase⟩
    · exact ⟨hlt.le, fun _ => hlt.ne⟩
    · exact ⟨le_rfl, fun happlied => absurd happlied hphase⟩
  · intro row hrow hacknowledged
    have hall := hrun.append hlater
    have hinv' : w'.Inv := hall.invariant inv_fresh fun _ _ _ => Inv.step
    have hlogged : row.command ∈ w'.applied := by
      rcases hinv'.hub row hrow with hlt | ⟨-, hlogged⟩
      · omega
      · exact hlogged
    obtain ⟨fs, u, gs, hfs, hgs, p, hp⟩ := applied_recorded hall hlogged
    exact ⟨fs, u, gs, p, hfs, hgs, hp⟩

/-- One installation. -/
def oneNode : Ends :=
  ⟨"agent", "agent"⟩

/-- The first start, executed and acknowledged. -/
def startCommand : Command :=
  ⟨1, "0123456789abcdef0123456789abcdef", .start⟩

/-- The start is delivered twice; the first answer is lost. -/
def startedOnce : List ControlEvent :=
  [.record .start startCommand.commandId, .deliver none, .command ⟨"agent", startCommand⟩ true,
    .finish (.ok true) true, .defer startCommand "timed out"]

/-- The retry is answered from the receipt, and a stop fails. -/
def startedAgain : List ControlEvent :=
  [.deliver none, .command ⟨"agent", startCommand⟩ true,
    .acknowledge startCommand
      ⟨"DARK XRAY NODE", "agent", 1, startCommand.commandId, .start, true, true, true⟩,
    .record .stop "fedcba9876543210fedcba9876543210", .deliver none,
    .command ⟨"agent", ⟨2, "fedcba9876543210fedcba9876543210", .stop⟩⟩ true,
    .finish (.error "snapshot failed") true]

theorem ordered_control_safe_retry : ∃ w w' : RunControl, ∃ l,
    w'.executed = w.executed ++ l ∧ w.receipt = some ⟨startCommand, .applied, ""⟩ ∧
      ∀ p, w.receipt = some p → ∀ c ∈ l, p.command.revision ≤ c.revision ∧
        (p.phase = .applied → p.command.revision ≠ c.revision) := by
  have hfirst : (startedOnce.foldlM (next oneNode) fresh).map (fun w => w.receipt) =
      some (some ⟨startCommand, .applied, ""⟩) := by
    decide +kernel
  rcases Option.map_eq_some_iff.mp hfirst with ⟨w, hrun, hreceipt⟩
  have hsecond : ((startedOnce ++ startedAgain).foldlM (next oneNode) fresh).isSome = true := by
    decide +kernel
  rw [List.foldlM_append, hrun] at hsecond
  obtain ⟨w', hlater⟩ := Option.isSome_iff_exists.mp hsecond
  obtain ⟨l, hl, hsafe⟩ := (ordered_control_safe (Run.of_eval hrun) (Run.of_eval hlater)).2.1
  exact ⟨w, w', l, hl, hreceipt, hsafe⟩

end Nodes
end DarkXray
