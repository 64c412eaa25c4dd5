import DarkXray.Library.Meters
import DarkXray.Library.Runs
import DarkXray.Nodes.Traffic

/-!
# Resets of a Node's traffic counter

One client of one Node.  The Agent counts bytes, answers traffic requests, and
zeroes the counter for a new reset id; for an id it has seen it repeats the final
counters it remembers.  The Hub imports the answers, each in a transaction of its
own, and after the answer to a reset it zeroes its baseline in a second one.
Answers may be delayed, reordered or lost; a reset may be retried with its id.

Main results:

- Theorem {lit}`retried_reset_charges_twice`: the answer to a retried reset is
  charged again.
- Theorem {lit}`Metering.Inv.step`: a step that takes the answers in order keeps the
  charges within the count.
- Theorem {lit}`charged_le_counted`: so does every run of such steps.
-/

namespace DarkXray
namespace Nodes

open Library Policy

/-! ## The system -/

/-- Counters as the Agent read them, with the generation they were read in. -/
structure Reading where
  generation : ℕ
  up : ℕ
  down : ℕ
deriving DecidableEq, Repr

/-- The report of the client under its name. -/
def Reading.item (e : String) (r : Reading) : TrafficItem :=
  .item (.str e) (.int r.up) (.int r.down)

/-- An answer to a traffic request: the client's counters between those of other
clients; {lit}`accountingLease` says that the report is complete. -/
structure TrafficReply where
  before : List TrafficItem
  reading : Reading
  after : List TrafficItem
  accountingLease : Bool
deriving DecidableEq, Repr

/-- An answer to a reset request. -/
structure ResetReply where
  reading : Reading
  cached : Bool
deriving DecidableEq, Repr

/-- The Agent's counters and remembered resets, the Hub's tables, the answers on
their way and the resets whose baseline is still to be zeroed.  {lit}`baseline` is
the generation of the Hub's stored counters, which the Hub itself does not know. -/
structure Metering where
  up : Meter
  down : Meter
  resets : Table String Reading
  hub : Hub
  trafficReplies : List TrafficReply
  resetReplies : List ResetReply
  settling : List ResetReply
  baseline : ℕ

/-- What can happen. -/
inductive MeterEvent where
  /-- The client moves bytes. -/
  | grow (up down : ℕ)
  /-- The Agent answers a traffic request. -/
  | answerTraffic (before after : List TrafficItem) (accountingLease : Bool)
  /-- The Agent handles a reset request. -/
  | answerReset (resetId : String)
  /-- {lit}`sync_traffic` imports an answer. -/
  | importTraffic (reply : TrafficReply)
  /-- {lit}`reset_client_traffic` imports an answer. -/
  | importReset (reply : ResetReply)
  /-- {lit}`reset_client_traffic` zeroes the baseline after its import. -/
  | settleReset (reply : ResetReply)
  /-- An answer is lost, or the reset that waits for it ends. -/
  | loseTraffic (reply : TrafficReply)
  | loseReset (reply : ResetReply)
  | abandonReset (reply : ResetReply)
  /-- The Agent forgets an old reset. -/
  | forget (resetId : String)

namespace Metering

/-- The client's counters as they are now. -/
def reading (w : Metering) : Reading where
  generation := w.up.generation
  up := w.up.current
  down := w.down.current

/-- {lit}`traffic_reset`: repeat a remembered answer, or read, zero and remember. -/
def answerReset (w : Metering) (resetId : String) : Metering :=
  match w.resets.get? resetId with
  | some reading => { w with resetReplies := ⟨reading, true⟩ :: w.resetReplies }
  | none => { w with
      up := w.up.restart
      down := w.down.restart
      resets := w.resets.insert resetId w.reading
      resetReplies := ⟨w.reading, false⟩ :: w.resetReplies }

variable (digest : String → String) (nodeId e : String)

/-- The Hub after an import; a transaction that raises leaves it as it was. -/
def imported (w : Metering) (items : List TrafficItem) (initializeAbsent : Bool) : Hub :=
  (applyTrafficSnapshot digest nodeId items initializeAbsent w.hub).2

/-- Whether an import returns. -/
def imports (w : Metering) (items : List TrafficItem) (initializeAbsent : Bool) : Bool :=
  (applyTrafficSnapshot digest nodeId items initializeAbsent w.hub).1.isOk

/-- The generation of the baseline once a reading is imported. -/
def advance (w : Metering) (ok : Bool) (generation : ℕ) : ℕ :=
  if ok = true ∧ e ∈ w.hub.allowedTrafficClients nodeId then max w.baseline generation
  else w.baseline

/-- One event, where it is possible. -/
def next (w : Metering) : MeterEvent → Option Metering
  | .grow up down => some { w with up := w.up.grow up, down := w.down.grow down }
  | .answerTraffic before after lease =>
      if ∀ i ∈ before ++ after, i.source ≠ .ok e then
        some { w with trafficReplies := ⟨before, w.reading, after, lease⟩ :: w.trafficReplies }
      else none
  | .answerReset resetId =>
      if 8 ≤ resetId.length ∧ resetId.length ≤ 128 then some (w.answerReset resetId) else none
  | .importTraffic r =>
      if r ∈ w.trafficReplies then
        let items := r.before ++ r.reading.item e :: r.after
        some { w with
          hub := w.imported digest nodeId items r.accountingLease
          trafficReplies := w.trafficReplies.erase r
          baseline := w.advance nodeId e (w.imports digest nodeId items r.accountingLease)
            r.reading.generation }
      else none
  | .importReset r =>
      if r ∈ w.resetReplies then
        let items := [r.reading.item e]
        let ok := w.imports digest nodeId items false
        some { w with
          hub := w.imported digest nodeId items false
          resetReplies := w.resetReplies.erase r
          settling := if ok = true then r :: w.settling else w.settling
          baseline := w.advance nodeId e ok r.reading.generation }
      else none
  | .settleReset r =>
      if r ∈ w.settling then
        some { w with
          hub := (resetBaseline nodeId e w.hub).2
          settling := w.settling.erase r
          baseline :=
            if (resetBaseline nodeId e w.hub).1.isOk then
              max w.baseline (r.reading.generation + 1)
            else w.baseline }
      else none
  | .loseTraffic r => some { w with trafficReplies := w.trafficReplies.erase r }
  | .loseReset r => some { w with resetReplies := w.resetReplies.erase r }
  | .abandonReset r => some { w with settling := w.settling.erase r }
  | .forget resetId => some { w with resets := w.resets.erase resetId }

/-- The step relation of one client of one Node. -/
def Step (w : Metering) (event : MeterEvent) (w' : Metering) : Prop :=
  w.next digest nodeId e event = some w'

/-- Bytes that the Node really counted. -/
def counted (w : Metering) : ℕ :=
  w.up.counted + w.down.counted

/-- An Agent that has counted nothing, and a Hub whose usage row has a zero
baseline. -/
structure Start (w : Metering) : Prop where
  up : w.up = .zero
  down : w.down = .zero
  resets : w.resets = .empty
  idle : w.trafficReplies = [] ∧ w.resetReplies = [] ∧ w.settling = []
  baseline : w.baseline = 0
  row : ∃ row, w.hub.usage.get? (nodeId, e) = some row ∧ row.initialized = true ∧
    row.rawUp = 0 ∧ row.rawDown = 0

/-! ## Answers in order -/

/-- The counters stored for the client. -/
def raw (w : Metering) : ℤ × ℤ :=
  match w.hub.usage.get? (nodeId, e) with
  | none => (0, 0)
  | some row => (row.rawUp, row.rawDown)

/-- An answer is as new as the stored counters: it was read in a later generation,
or in theirs with counters that are not smaller, or it repeats them. -/
def InOrder (w : Metering) (r : Reading) : Prop :=
  w.baseline < r.generation ∨
    (r.generation = w.baseline ∧ (w.raw nodeId e).1 ≤ r.up ∧ (w.raw nodeId e).2 ≤ r.down) ∨
    ((r.up : ℤ) = (w.raw nodeId e).1 ∧ (r.down : ℤ) = (w.raw nodeId e).2)

/-- The condition on a step: answers are imported in order, and a baseline is zeroed
only while no counters of a later generation are stored. -/
def Fresh (w : Metering) : MeterEvent → Prop
  | .importTraffic r => w.InOrder nodeId e r.reading
  | .importReset r => w.InOrder nodeId e r.reading
  | .settleReset r => w.baseline ≤ r.reading.generation ∨ w.raw nodeId e = (0, 0)
  | _ => True

instance (w : Metering) (r : Reading) : Decidable (w.InOrder nodeId e r) :=
  inferInstanceAs (Decidable (_ ∨ _ ∨ _))

instance (w : Metering) (event : MeterEvent) : Decidable (w.Fresh nodeId e event) :=
  match event with
  | .importTraffic r => inferInstanceAs (Decidable (w.InOrder nodeId e r.reading))
  | .importReset r => inferInstanceAs (Decidable (w.InOrder nodeId e r.reading))
  | .settleReset _ => inferInstanceAs (Decidable (_ ∨ _))
  | .grow _ _ => isTrue trivial
  | .answerTraffic _ _ _ => isTrue trivial
  | .answerReset _ => isTrue trivial
  | .loseTraffic _ => isTrue trivial
  | .loseReset _ => isTrue trivial
  | .abandonReset _ => isTrue trivial
  | .forget _ => isTrue trivial

/-! ## The account of the Hub with the Agent's counters -/

/-- A reading was taken from the counters. -/
structure Taken (sent received : Meter) (r : Reading) : Prop where
  generation : r.generation ≤ sent.generation
  up : r.up ≤ sent.limit r.generation
  down : r.down ≤ received.limit r.generation

/-- A reading was the last one of its generation. -/
structure Closed (sent received : Meter) (r : Reading) : Prop extends Taken sent received r where
  ended : r.generation < sent.generation

/-- The Hub's account with the Agent's counters, if it had charged {lit}`opening`
bytes to the client before. -/
def Accounted (opening : ℤ) (hub : Hub) (up down : Meter) (baseline : ℕ) : Prop :=
  ∃ row chargedUp chargedDown,
    hub.usage.get? (nodeId, e) = some row ∧ row.initialized = true ∧
    0 ≤ row.rawUp ∧ 0 ≤ row.rawDown ∧ hub.billed e = opening + chargedUp + chargedDown ∧
    Billing up chargedUp row.rawUp baseline ∧ Billing down chargedDown row.rawDown baseline

/-- What holds between the Agent's counters, the answers on their way and the Hub. -/
structure Inv (opening : ℤ) (w : Metering) : Prop where
  generations : w.down.generation = w.up.generation
  traffic : ∀ r ∈ w.trafficReplies,
    Taken w.up w.down r.reading ∧ ∀ i ∈ r.before ++ r.after, i.source ≠ .ok e
  reset : ∀ r ∈ w.resetReplies, Closed w.up w.down r.reading
  settling : ∀ r ∈ w.settling, Closed w.up w.down r.reading
  remembered : ∀ id r, w.resets.get? id = some r → Closed w.up w.down r
  accounted : Accounted nodeId e opening w.hub w.up w.down w.baseline

variable {digest nodeId e} {w w' : Metering} {opening : ℤ}

/-- The last readings of a row that is there. -/
theorem raw_eq {row : UsageRow} (h : w.hub.usage.get? (nodeId, e) = some row) :
    w.raw nodeId e = (row.rawUp, row.rawDown) := by
  simp [raw, h]

/-- An import that is in order keeps the account. -/
theorem accounted_import {before after : List TrafficItem} {lease : Bool} {r : Reading}
    (hinv : w.Inv nodeId e opening) (htaken : Taken w.up w.down r)
    (hothers : ∀ i ∈ before ++ after, i.source ≠ .ok e) (horder : w.InOrder nodeId e r) :
    Accounted nodeId e opening
      (w.imported digest nodeId (before ++ r.item e :: after) lease) w.up w.down
      (w.advance nodeId e (w.imports digest nodeId (before ++ r.item e :: after) lease)
        r.generation) := by
  rcases hinv.accounted with ⟨row, cu, cd, hrow, hinit, hup, hdown, hbilled, hbu, hbd⟩
  unfold imported imports
  rcases hrun : applyTrafficSnapshot digest nodeId (before ++ r.item e :: after) lease w.hub with
    ⟨f | snapshot, t⟩
  · rw [applyTrafficSnapshot_atomic _ _ _ _ _ hrun]
    exact ⟨row, cu, cd, hrow, hinit, hup, hdown, hbilled, hbu, hbd⟩
  · have hothers' := fun i hi => hothers i (List.mem_append.mpr hi)
    have hok : (Except.ok snapshot : Except Failure Snapshot).isOk = true := rfl
    rw [hok]
    rcases applyTrafficSnapshot_single (fun i hi => hothers' i (.inl hi))
      (fun i hi => hothers' i (.inr hi)) hrow hinit hrun with
      ⟨hignored, hmetered⟩ | ⟨hallowed, row', hup', hdown', hinit', hmetered⟩
    · have hkeep : w.advance nodeId e true r.generation = w.baseline := by
        simp [advance, hignored]
      rw [hkeep]
      refine ⟨row, cu, cd, hmetered.row.trans hrow, hinit, hup, hdown, ?_, hbu, hbd⟩
      rw [hmetered.billed, hbilled, add_zero]
    · have hadvance : w.advance nodeId e true r.generation = max w.baseline r.generation := by
        simp [advance, hallowed]
      rw [hadvance]
      rw [InOrder, raw_eq hrow] at horder
      refine ⟨row', cu + counterDelta r.up row.rawUp, cd + counterDelta r.down row.rawDown,
        hmetered.row, hinit', hup'.symm ▸ Int.natCast_nonneg _,
        hdown'.symm ▸ Int.natCast_nonneg _, ?_, ?_, ?_⟩
      · rw [hmetered.billed, hbilled]
        omega
      · rw [hup']
        apply hbu.charge htaken.generation (by exact_mod_cast htaken.up) hup
        rcases horder with hlt | ⟨heq, hle, _⟩ | ⟨heq, _⟩
        · exact .inl hlt
        · exact .inr (.inl ⟨heq, hle⟩)
        · exact .inr (.inr heq)
      · rw [hdown']
        have hgen : r.generation ≤ w.down.generation := hinv.generations ▸ htaken.generation
        apply hbd.charge hgen (by exact_mod_cast htaken.down) hdown
        rcases horder with hlt | ⟨heq, _, hle⟩ | ⟨_, heq⟩
        · exact .inl hlt
        · exact .inr (.inl ⟨heq, hle⟩)
        · exact .inr (.inr heq)

/-- Zeroing the baseline in time keeps the account. -/
theorem accounted_settle {r : Reading} (hinv : w.Inv nodeId e opening) (hclosed : Closed w.up w.down r)
    (hfresh : w.baseline ≤ r.generation ∨ w.raw nodeId e = (0, 0)) :
    Accounted nodeId e opening (resetBaseline nodeId e w.hub).2 w.up w.down
      (if (resetBaseline nodeId e w.hub).1.isOk then max w.baseline (r.generation + 1)
        else w.baseline) := by
  rcases hinv.accounted with ⟨row, cu, cd, hrow, hinit, hup, hdown, hbilled, hbu, hbd⟩
  rcases hrun : resetBaseline nodeId e w.hub with ⟨f | _, t⟩
  · rw [Tx.Atomic.transaction _ _ _ _ hrun]
    exact ⟨row, cu, cd, hrow, hinit, hup, hdown, hbilled, hbu, hbd⟩
  · rcases resetBaseline_ok hrow hrun with ⟨row', hup', hdown', hinit', hmetered⟩
    rw [raw_eq hrow, Prod.mk.injEq] at hfresh
    refine ⟨row', cu, cd, hmetered.row, hinit', hup'.ge, hdown'.ge, ?_, ?_, ?_⟩
    · rw [hmetered.billed, hbilled, add_zero]
    · rw [hup']
      exact hbu.restart hclosed.ended (hfresh.imp id And.left)
    · rw [hdown']
      exact hbd.restart (hinv.generations ▸ hclosed.ended) (hfresh.imp id And.right)

/-! ## Steps -/

section Readings

variable {up down : Meter} {r : Reading}

/-- What is read now has been taken. -/
theorem Taken.now (h : w.down.generation = w.up.generation) : Taken w.up w.down w.reading := by
  refine ⟨le_rfl, ?_, ?_⟩
  · exact Meter.limit_generation.ge
  · have hlimit : w.down.limit w.up.generation = w.down.current := by
      rw [← h, Meter.limit_generation]
    exact hlimit.ge

/-- Readings stay readings while the counters go on. -/
theorem Taken.grow (h : Taken up down r) (n m : ℕ) : Taken (up.grow n) (down.grow m) r :=
  ⟨h.generation, h.up.trans Meter.limit_grow_ge, h.down.trans Meter.limit_grow_ge⟩

/-- A closed reading stays closed when the meters grow. -/
theorem Closed.grow (h : Closed up down r) (n m : ℕ) : Closed (up.grow n) (down.grow m) r :=
  ⟨h.toTaken.grow n m, h.ended⟩

/-- When the counters restart, every reading is of a generation that is over. -/
theorem Taken.restart (h : Taken up down r) (hgen : down.generation = up.generation) :
    Closed up.restart down.restart r := by
  have hle := h.generation
  refine ⟨⟨?_, ?_, ?_⟩, ?_⟩
  · rw [Meter.generation_restart]
    omega
  · rw [Meter.limit_restart hle]
    exact h.up
  · rw [Meter.limit_restart (hgen ▸ hle)]
    exact h.down
  · rw [Meter.generation_restart]
    omega

end Readings

/-- Handling a reset request keeps the invariant. -/
theorem Inv.answerReset (h : w.Inv nodeId e opening) (resetId : String) :
    (w.answerReset resetId).Inv nodeId e opening := by
  unfold Metering.answerReset
  cases hget : w.resets.get? resetId with
  | some reading =>
      have hclosed := h.remembered resetId reading hget
      refine { h with reset := ?_ }
      intro r hr
      rcases List.mem_cons.mp hr with rfl | hr
      · exact hclosed
      · exact h.reset r hr
  | none =>
      have hnow := (Taken.now h.generations).restart h.generations
      rcases h.accounted with ⟨row, cu, cd, hrow, hinit, hup, hdown, hbilled, hbu, hbd⟩
      refine ⟨?_, ?_, ?_, ?_, ?_, ?_⟩
      · rw [Meter.generation_restart, Meter.generation_restart, h.generations]
      · intro r hr
        rcases h.traffic r hr with ⟨htaken, hothers⟩
        exact ⟨(htaken.restart h.generations).toTaken, hothers⟩
      · intro r hr
        rcases List.mem_cons.mp hr with rfl | hr
        · exact hnow
        · exact (h.reset r hr).toTaken.restart h.generations
      · exact fun r hr => (h.settling r hr).toTaken.restart h.generations
      · intro id r hr
        rw [Table.get?_insert hget] at hr
        split at hr
        · cases hr
          exact hnow
        · exact (h.remembered id r hr).toTaken.restart h.generations
      · exact ⟨row, cu, cd, hrow, hinit, hup, hdown, hbilled, hbu.meter_restart, hbd.meter_restart⟩

/-- A step that takes the answers in order keeps the invariant. -/
theorem Inv.step {event : MeterEvent} (h : w.Inv nodeId e opening)
    (hstep : w.next digest nodeId e event = some w') (hfresh : w.Fresh nodeId e event) :
    w'.Inv nodeId e opening := by
  cases event with
  | grow up down =>
      cases hstep
      rcases h.accounted with ⟨row, cu, cd, hrow, hinit, hup, hdown, hbilled, hbu, hbd⟩
      exact
        { generations := h.generations
          traffic := fun r hr => ⟨(h.traffic r hr).1.grow up down, (h.traffic r hr).2⟩
          reset := fun r hr => (h.reset r hr).grow up down
          settling := fun r hr => (h.settling r hr).grow up down
          remembered := fun id r hr => (h.remembered id r hr).grow up down
          accounted :=
            ⟨row, cu, cd, hrow, hinit, hup, hdown, hbilled, hbu.grow, hbd.grow⟩ }
  | answerTraffic before after lease =>
      simp only [next] at hstep
      split at hstep <;> rename_i hothers
      · cases hstep
        refine { h with traffic := ?_ }
        intro r hr
        rcases List.mem_cons.mp hr with rfl | hr
        · exact ⟨Taken.now h.generations, hothers⟩
        · exact h.traffic r hr
      · cases hstep
  | answerReset resetId =>
      simp only [next] at hstep
      split at hstep
      · cases hstep
        exact h.answerReset resetId
      · cases hstep
  | importTraffic r =>
      simp only [next] at hstep
      split at hstep <;> rename_i hr
      · cases hstep
        rcases h.traffic r hr with ⟨htaken, hothers⟩
        exact { h with
          traffic := fun r' hr' => h.traffic r' (List.mem_of_mem_erase hr')
          accounted := accounted_import h htaken hothers hfresh }
      · cases hstep
  | importReset r =>
      simp only [next] at hstep
      split at hstep <;> rename_i hr
      · cases hstep
        have hnone : ∀ i ∈ ([] ++ [] : List TrafficItem), i.source ≠ .ok e := by simp
        refine { h with
          reset := fun r' hr' => h.reset r' (List.mem_of_mem_erase hr')
          settling := ?_
          accounted := accounted_import h (h.reset r hr).toTaken hnone hfresh }
        intro r' hr'
        dsimp only at hr'
        split at hr'
        · rcases List.mem_cons.mp hr' with rfl | hr'
          · exact h.reset r' hr
          · exact h.settling r' hr'
        · exact h.settling r' hr'
      · cases hstep
  | settleReset r =>
      simp only [next] at hstep
      split at hstep <;> rename_i hr
      · cases hstep
        exact { h with
          settling := fun r' hr' => h.settling r' (List.mem_of_mem_erase hr')
          accounted := accounted_settle h (h.settling r hr) hfresh }
      · cases hstep
  | loseTraffic r =>
      cases hstep
      exact { h with traffic := fun r' hr' => h.traffic r' (List.mem_of_mem_erase hr') }
  | loseReset r =>
      cases hstep
      exact { h with reset := fun r' hr' => h.reset r' (List.mem_of_mem_erase hr') }
  | abandonReset r =>
      cases hstep
      exact { h with settling := fun r' hr' => h.settling r' (List.mem_of_mem_erase hr') }
  | forget resetId =>
      cases hstep
      refine { h with remembered := ?_ }
      intro id r hr
      dsimp only at hr
      rw [Table.get?_erase] at hr
      split at hr
      · cases hr
      · exact h.remembered id r hr

/-- The invariant holds at the start. -/
theorem Start.inv (h : w.Start nodeId e) : w.Inv nodeId e (w.hub.billed e) := by
  rcases h.idle with ⟨htraffic, hreset, hsettling⟩
  rcases h.row with ⟨row, hrow, hinit, hup, hdown⟩
  refine ⟨?_, ?_, ?_, ?_, ?_, ?_⟩
  · rw [h.up, h.down]
  · simp [htraffic]
  · simp [hreset]
  · simp [hsettling]
  · simp [h.resets]
  · refine ⟨row, 0, 0, hrow, hinit, hup.ge, hdown.ge, by omega, ?_, ?_⟩
    · rw [h.up, h.baseline, hup]
      exact .zero
    · rw [h.down, h.baseline, hdown]
      exact .zero

end Metering

/-! ## Runs -/

open Metering

/-- In every run that takes the answers in order, the bytes charged to the client
never exceed the bytes that the Node counted. -/
theorem charged_le_counted {digest : String → String} {nodeId e : String} {w w' : Metering}
    {events : List MeterEvent} (hstart : w.Start nodeId e)
    (hrun : Run (Guarded (Step digest nodeId e) (Fresh nodeId e)) w events w') :
    w'.hub.billed e - w.hub.billed e ≤ w'.counted := by
  have hinv : w'.Inv nodeId e (w.hub.billed e) :=
    hrun.invariant hstart.inv fun _ _ _ h hstep => h.step hstep.1 hstep.2
  rcases hinv.accounted with ⟨row, cu, cd, _, _, _, _, hbilled, hbu, hbd⟩
  have hup := hbu.charged_le
  have hdown := hbd.charged_le
  unfold counted
  push_cast
  omega

/-- One client of one Node before its first byte. -/
def firstClient : Metering where
  up := .zero
  down := .zero
  resets := .empty
  hub :=
    { nodeInbounds := [⟨"node", 1, 7⟩]
      managedClients := Table.empty.insert "client" ⟨some [1], false, 0, 0⟩
      clients := Table.empty.insert "client" ⟨"rep", 0⟩
      periods := Table.empty.insert "rep" 0
      usage := Table.empty.insert ("node", "client") ⟨0, 0, 0, 0, 0, true⟩
      trafficLedger := .empty }
  trafficReplies := []
  resetReplies := []
  settling := []
  baseline := 0

/-- One client is a start. -/
theorem firstClient_start : firstClient.Start "node" "client" :=
  ⟨rfl, rfl, rfl, ⟨rfl, rfl, rfl⟩, rfl, ⟨0, 0, 0, 0, 0, true⟩, by decide, rfl, rfl, rfl⟩

/-- A reset that is answered, imported and settled once. -/
def resetOnce : List MeterEvent :=
  [.grow 60 40, .answerReset "reset-1.", .importReset ⟨⟨0, 60, 40⟩, false⟩,
    .settleReset ⟨⟨0, 60, 40⟩, false⟩]

/-- The same reset, retried with its id. -/
def resetRetried : List MeterEvent :=
  resetOnce ++ [.answerReset "reset-1.", .importReset ⟨⟨0, 60, 40⟩, true⟩]

/-- After a reset the client is charged what was counted at most. -/
theorem charged_le_counted_reset : ∃ w : Metering, w.hub.billed "client" = 100 ∧
    w.hub.billed "client" - firstClient.hub.billed "client" ≤ w.counted := by
  have heval : (resetOnce.foldlM (fun w event =>
      if Fresh "node" "client" w event then next id "node" "client" w event else none)
      firstClient).map (fun w => w.hub.billed "client") = some 100 := by
    decide +kernel
  rcases Option.map_eq_some_iff.mp heval with ⟨w, hrun, hbilled⟩
  exact ⟨w, hbilled, charged_le_counted firstClient_start (Run.of_guarded_eval hrun)⟩

/-- The reset is retried after it was settled, because another Node failed: the
Agent repeats the answer it remembers, and the Hub charges it against the zeroed
baseline once more. -/
theorem retried_reset_charges_twice : ∃ events w, firstClient.Start "node" "client" ∧
    Run (Step id "node" "client") firstClient events w ∧
    ¬w.hub.billed "client" - firstClient.hub.billed "client" ≤ w.counted := by
  have heval : (resetRetried.foldlM (next id "node" "client") firstClient).map
      (fun w => (w.hub.billed "client", w.counted)) = some (200, 100) := by
    decide +kernel
  rcases Option.map_eq_some_iff.mp heval with ⟨w, hrun, hcharged⟩
  rw [Prod.mk.injEq] at hcharged
  refine ⟨_, w, firstClient_start, Run.of_eval hrun, ?_⟩
  have hopening : firstClient.hub.billed "client" = 0 := by decide +kernel
  rw [hcharged.1, hcharged.2, hopening]
  decide

end Nodes
end DarkXray
