import DarkXray.Nodes.Runtime

/-!
# The lease guard

A thread of the Agent looks after the lease at short intervals.  It feeds the
system's watchdog while the lease is held, waits a tenth of a second for the engine
lock, pauses the customer process when the lease has expired or is about to, and
triggers the watchdog when it cannot.  Renewals, clock advances, the exit of the
customer process and the procedures of other lock holders come in between.

Main results:

- Theorem {lit}`AgentSystem.Inv.step`: the invariant of the guard.
- Theorem {lit}`no_run_without_lease`: the customer process is started under a lease
  only, and the guard stops it or triggers the watchdog when the lease is gone.
- Theorem {lit}`guard_without_watchdog`: a guard without a watchdog triggers nothing, and one
  that is held up feeds the watchdog too long.
-/

namespace DarkXray
namespace Nodes

open Library Policy

/-! ## The watchdog -/

/-- {lit}`SystemdWatchdog`; {lit}`interval` is its timeout in the clock's unit. -/
structure Watchdog where
  enabled : Bool
  interval : ℕ
deriving DecidableEq, Repr

/-- Send a message, if there is somebody to send it to. -/
def Watchdog.send {α : Type} (d : Watchdog) (raised : Option Raised) (sent : α) :
    Except Raised (Option α) :=
  if d.enabled then raised.elim (.ok (some sent)) .error else .ok none

/-- {lit}`_notify_seconds`: a keepalive announces the next timeout in microseconds. -/
def Watchdog.notifySeconds (d : Watchdog) (raised : Option Raised) (interval : ℕ) :
    Except Raised (Option ℕ) :=
  d.send raised (max 1 (interval / 1000))

/-- {lit}`notify` with the lease: no keepalive in the last ten seconds of a lease, and
before them one that is shorter than the lease. -/
def Watchdog.notify (d : Watchdog) (raised : Option Raised) (v : Runtime) :
    Except Raised (Option ℕ) :=
  if d.enabled && v.required then
    if v.remaining ≤ leaseEarlyFence then .ok none
    else d.notifySeconds raised (min d.interval (v.remaining - 1 * second))
  else d.notifySeconds raised d.interval

/-- {lit}`trigger`; whether it sent its message. -/
def Watchdog.trigger (d : Watchdog) (raised : Option Raised) : Except Raised Bool :=
  (d.send raised ()).map Option.isSome

/-! ## Ticks -/

/-- The state at the end of a tick, and what the tick did: {lit}`trigger` is the result of its
last call of {lit}`trigger`, {lit}`keepalives` are the timeouts that it announced.  It lasted from
{lit}`began` to {lit}`ended` by the clock of the lease. -/
structure TickRecord where
  expired : Bool
  running : Bool
  trigger : Option (Except Raised Bool)
  keepalives : List ℕ
  began : ℕ
  ended : ℕ
  lastError : String

/-- The watchdog was told to fail the unit. -/
def TickRecord.triggered (r : TickRecord) : Bool :=
  r.trigger.any fun result => result.toOption = some true

/-- The call of {lit}`trigger` raised. -/
def TickRecord.refused (r : TickRecord) : Bool :=
  r.trigger.any fun result => result.toOption = none

/-- The text of an exception in {lit}`last_error`. -/
def Raised.text (e : Raised) : String :=
  e.name ++ ": " ++ (e.message.take 400).toString

/-- The record of a tick that ends now. -/
def Runtime.tick (v : Runtime) (trigger : Option (Except Raised Bool)) (keepalives : List ℕ)
    (began : ℕ) (lastError : String) : TickRecord :=
  ⟨v.expired, v.running, trigger, keepalives, began, v.lease.now, lastError⟩

/-- What a guard may meet when it sends: {lit}`again` is for the call of {lit}`trigger` in its
exception handler. -/
structure Sending where
  first : Option Raised
  again : Option Raised

/-- The end of a tick that raised: the watchdog is triggered when a process runs
without a lease. -/
def tickRaised (d : Watchdog) (v : Runtime) (fed : List ℕ) (began : ℕ) (e : Raised)
    (sending : Sending) : TickRecord :=
  v.tick (if v.expired && v.running then some (d.trigger sending.again) else none) fed began e.text

/-- The end of a tick that has the engine lock. -/
def tickEnd (d : Watchdog) (v : Runtime) (fed : List ℕ) (began : ℕ) (raised : Option Raised)
    (sending : Sending) : TickRecord :=
  match raised with
  | some e => tickRaised d v fed began e sending
  | none =>
      if v.expired && v.running then
        match d.trigger sending.first with
        | .ok sent => v.tick (some (.ok sent)) fed began "lease_expired_core_still_running"
        | .error e => tickRaised d v fed began e sending
      else if v.running = false then
        match d.notifySeconds sending.first d.interval with
        | .ok sent => v.tick none (fed ++ sent.toList) began ""
        | .error e => tickRaised d v fed began e sending
      else if fed = [] then
        match d.notify sending.first v with
        | .ok sent => v.tick none sent.toList began ""
        | .error e => tickRaised d v [] began e sending
      else v.tick none fed began ""

/-- The end of a tick that does not get the engine lock. -/
def tickBusy (d : Watchdog) (v : Runtime) (fed : List ℕ) (began : ℕ) (sending : Option Raised) :
    TickRecord :=
  if v.expired then
    if v.running then
      match d.trigger sending with
      | .ok sent => v.tick (some (.ok sent)) fed began "lease_expired_engine_busy_core_running"
      | .error e => v.tick (some (.error e)) fed began
          ("lease_expired_engine_busy_core_running: " ++ e.name)
    else
      match d.notifySeconds sending d.interval with
      | .ok sent => v.tick none (fed ++ sent.toList) began "lease_expired_engine_busy_core_stopped"
      | .error e => v.tick none fed began ("lease_expired_engine_busy_core_stopped: " ++ e.name)
  else v.tick none fed began "engine_busy_with_valid_lease"

/-- The customer process runs in the last ten seconds of its lease. -/
def Runtime.nearExpiry (v : Runtime) : Bool :=
  v.required && v.allowed && v.running && decide (v.remaining ≤ leaseEarlyFence)

/-- The first keepalive of a tick. -/
def tickFeed (d : Watchdog) (v : Runtime) (sending : Option Raised) : Except Raised (List ℕ) :=
  if v.allowed && !v.nearExpiry then (d.notify sending v).map Option.toList else .ok []

/-! ## The system -/

/-- Where the guard is in its tick: {lit}`near` and {lit}`fed` are its local variables,
{lit}`began` the time at which it starts to wait for the lock. -/
inductive GuardPhase where
  | idle
  | waiting (near : Bool) (fed : List ℕ) (began : ℕ)
  | pausing (fed : List ℕ) (began : ℕ)
deriving DecidableEq, Repr

/-- Who holds the engine lock, and what is left to do; the guard holds it as
{lit}`none`. -/
structure Holder where
  op : Option Operation
  rest : Procedure

/-- The runtime, the watchdog, the holder of the engine lock, the guard and the
records of its ticks, oldest first. -/
structure AgentSystem where
  runtime : Runtime
  watchdog : Watchdog
  holder : Option Holder
  guard : GuardPhase
  ticks : List TickRecord

/-- What can happen. -/
inductive AgentEvent where
  /-- The clock advances, a challenge is issued or acknowledged. -/
  | lease (event : LeaseEvent)
  /-- The customer process ends by itself. -/
  | exit
  /-- An operation takes the engine lock. -/
  | enter (op : Operation)
  /-- The holder of the lock performs its next action; a finished operation
  releases the lock. -/
  | run (o : Outcome)
  /-- A tick begins. -/
  | tick (sending : Option Raised)
  /-- The guard does not get the lock in time. -/
  | busy (sending : Option Raised)
  /-- The guard gets the lock. -/
  | locked (sending : Sending)
  /-- The guard's pause is over. -/
  | finish (sending : Sending)

/-- Trips are recorded by the Agent itself only. -/
def LeaseEvent.external : LeaseEvent → Bool
  | .recordTrip _ _ _ => false
  | _ => true

namespace AgentSystem

/-- The runtime of a new process of the Agent. -/
def startRuntime (required : Bool) (trips : ℕ) (lastError : String) (now : ℕ)
    (control : Option ControlBits) (autostart : Bool) : Runtime :=
  let v : Runtime :=
    { lease := .start required trips lastError now
      running := false
      wantsRunning := autostart
      control := control
      autostart := autostart
      starts := 0 }
  { v with wantsRunning := v.effectiveRunning }

/-- A new process of the Agent. -/
def start (runtime : Runtime) (watchdog : Watchdog) : AgentSystem where
  runtime := runtime
  watchdog := watchdog
  holder := none
  guard := .idle
  ticks := []

/-- A tick ends. -/
def ended (w : AgentSystem) (r : TickRecord) : AgentSystem :=
  { w with
    guard := .idle
    ticks := w.ticks ++ [r] }

/-- The holder goes on with a procedure. -/
def hold (w : AgentSystem) (op : Option Operation) (rest : Procedure) : AgentSystem :=
  { w with holder := if op.isSome && rest.result?.isSome then none else some ⟨op, rest⟩ }

/-- What the guard does when it gets the lock. -/
def locked (w : AgentSystem) (near : Bool) (fed : List ℕ) (began : ℕ) (sending : Sending) :
    AgentSystem :=
  if w.runtime.expired then
    { w.hold none (pauseExpiredLease 0) with guard := .pausing fed began }
  else if near && w.runtime.allowed && w.runtime.running then
    { w.hold none (pauseExpiredLease leaseEarlyFence) with guard := .pausing fed began }
  else w.ended (tickEnd w.watchdog w.runtime fed began none sending)

/-- The state after an event, if the event can happen.  What a thread does between
two waits takes no time; a wait may take any time. -/
def next (w : AgentSystem) : AgentEvent → Option AgentSystem
  | .lease event =>
      if event.external then
        (w.runtime.lease.next event).map fun lease =>
          { w with runtime := { w.runtime with lease := lease } }
      else none
  | .exit => some { w with runtime := { w.runtime with running := false } }
  | .enter op => if w.holder.isNone then some (w.hold (some op) op.proc) else none
  | .run o =>
      match w.holder with
      | some ⟨op, .act a rest⟩ =>
          let reply := a.perform o w.runtime
          some (({ w with runtime := reply.1 }).hold op (rest ⟨reply.2, o.answer, reply.1⟩))
      | _ => none
  | .tick sending =>
      if w.guard = .idle then
        match tickFeed w.watchdog w.runtime sending with
        | .ok fed =>
            some { w with guard := .waiting w.runtime.nearExpiry fed w.runtime.lease.now }
        | .error e => some (w.ended (w.runtime.tick none [] w.runtime.lease.now e.text))
      else none
  | .busy sending =>
      match w.guard with
      | .waiting _ fed began =>
          some (w.ended (tickBusy w.watchdog w.runtime fed began sending))
      | _ => none
  | .locked sending =>
      match w.guard with
      | .waiting near fed began =>
          if w.holder.isNone then some (w.locked near fed began sending) else none
      | _ => none
  | .finish sending =>
      match w.guard, w.holder with
      | .pausing fed began, some ⟨none, .done raised⟩ =>
          some (({ w with holder := none }).ended
            (tickEnd w.watchdog w.runtime fed began raised sending))
      | _, _ => none

/-- One step of the system. -/
def Step (w : AgentSystem) (event : AgentEvent) (w' : AgentSystem) : Prop :=
  w.next event = some w'

end AgentSystem

/-! ## What a tick does -/

variable {v v' : Runtime} {d : Watchdog} {fed : List ℕ} {raised : Option Raised}
  {sending : Sending} {began : ℕ}

/-- The lease outlives the first ten seconds of a tick, if it is required by then. -/
def Runtime.Fed (v : Runtime) (began : ℕ) : Prop :=
  began ≤ v.lease.now ∧ (v.required = true → began + leaseEarlyFence < v.lease.lease.deadline)

/-- A lease that outlives the tick is held at its end. -/
theorem Runtime.Fed.held (h : v.Fed began) (hnow : v.lease.now ≤ began + leaseEarlyFence) :
    v.expired = false := by
  cases hrequired : v.required with
  | false => simp [expired, hrequired]
  | true =>
      have hlt := hnow.trans_lt (h.2 hrequired)
      simp [expired, allowed, HubLease.allowed, hlt]

/-- A tick that ends with a process without a lease has called {lit}`trigger`: the watchdog is
triggered, unless it is not there or the call raised.  If the tick took at most ten seconds, it
has not fed the watchdog. -/
structure TickRecord.Safe (d : Watchdog) (r : TickRecord) : Prop where
  triggered : r.expired = true → r.running = true → d.enabled = true → r.refused = false →
    r.triggered = true
  unfed : r.expired = true → r.running = true → r.ended ≤ r.began + leaseEarlyFence →
    r.keepalives = []

/-- A watchdog that is there sends its message, or raises. -/
theorem Watchdog.trigger_cases (henabled : d.enabled = true) (raised : Option Raised) :
    d.trigger raised = .ok true ∨ ∃ e, d.trigger raised = .error e := by
  cases raised with
  | none => exact .inl (by simp [trigger, send, henabled, Except.map])
  | some e => exact .inr ⟨e, by simp [trigger, send, henabled, Except.map]⟩

/-- The watchdog was fed under a lease that outlives the tick, or not at all. -/
theorem unfed_of_fed (hfed : fed = [] ∨ v.Fed began) (hexpired : v.expired = true)
    (hshort : v.lease.now ≤ began + leaseEarlyFence) : fed = [] := by
  refine hfed.resolve_right fun h => ?_
  rw [h.held hshort] at hexpired
  cases hexpired

theorem safe_of_held (hheld : v.expired = false) (result : Option (Except Raised Bool))
    (text : String) : (v.tick result fed began text).Safe d where
  triggered hexpired := absurd hexpired (by simp [Runtime.tick, hheld])
  unfed hexpired := absurd hexpired (by simp [Runtime.tick, hheld])

theorem safe_of_stopped (hstopped : v.running = false) (result : Option (Except Raised Bool))
    (text : String) : (v.tick result fed began text).Safe d where
  triggered _ hrunning := absurd hrunning (by simp [Runtime.tick, hstopped])
  unfed _ hrunning := absurd hrunning (by simp [Runtime.tick, hstopped])

/-- A tick that ends with a call of {lit}`trigger` is safe. -/
theorem safe_of_trigger (hfed : fed = [] ∨ v.Fed began) (sending : Option Raised) (text : String) :
    (v.tick (some (d.trigger sending)) fed began text).Safe d where
  triggered _ _ henabled hrefused := by
    rcases d.trigger_cases henabled sending with hsent | ⟨e, he⟩
    · simp [TickRecord.triggered, Runtime.tick, hsent, Except.toOption]
    · simp [TickRecord.refused, Runtime.tick, he, Except.toOption] at hrefused
  unfed hexpired _ hshort := unfed_of_fed hfed hexpired hshort

/-- A tick that raises ends safely. -/
theorem safe_tickRaised (hfed : fed = [] ∨ v.Fed began) (e : Raised) :
    (tickRaised d v fed began e sending).Safe d := by
  simp only [tickRaised]
  split
  · exact safe_of_trigger hfed _ _
  · rename_i hnot
    rw [Bool.and_eq_true, not_and_or] at hnot
    rcases hnot with hheld | hstopped
    · exact safe_of_held (Bool.eq_false_of_not_eq_true hheld) _ _
    · exact safe_of_stopped (Bool.eq_false_of_not_eq_true hstopped) _ _

theorem safe_tickEnd (hfed : fed = [] ∨ v.Fed began) :
    (tickEnd d v fed began raised sending).Safe d := by
  cases raised with
  | some e => exact safe_tickRaised hfed e
  | none =>
      simp only [tickEnd]
      split
      · split
        · rename_i sent hsent
          exact hsent ▸ safe_of_trigger hfed sending.first _
        · exact safe_tickRaised hfed _
      · rename_i hnot
        split
        · rename_i hstopped
          split
          · exact safe_of_stopped hstopped _ _
          · exact safe_tickRaised hfed _
        · rename_i hrunning
          have hheld : v.expired = false := by simpa [hrunning] using hnot
          split
          · split
            · exact safe_of_held hheld _ _
            · exact safe_tickRaised (.inl rfl) _
          · exact safe_of_held hheld _ _

theorem safe_tickBusy {sending : Option Raised} (hfed : fed = [] ∨ v.Fed began) :
    (tickBusy d v fed began sending).Safe d := by
  simp only [tickBusy]
  split
  · split
    · split
      · rename_i sent hsent
        exact hsent ▸ safe_of_trigger hfed sending _
      · rename_i e he
        exact he ▸ safe_of_trigger hfed sending _
    · rename_i hstopped
      rw [Bool.not_eq_true] at hstopped
      split <;> exact safe_of_stopped hstopped _ _
  · rename_i hheld
    exact safe_of_held (Bool.eq_false_of_not_eq_true hheld) _ _

/-- The watchdog is only fed at the begin of a tick if the lease outlives it. -/
theorem fed_of_tickFeed {sending : Option Raised} (h : tickFeed d v sending = .ok fed) :
    fed = [] ∨ v.Fed v.lease.now := by
  simp only [tickFeed] at h
  split at h
  · rename_i hallowed
    rw [Bool.and_eq_true, Bool.not_eq_true'] at hallowed
    cases hnotify : d.notify sending v with
    | error e => simp [hnotify, Except.map] at h
    | ok sent =>
        have hsent : sent.toList = fed := by simpa [hnotify, Except.map] using h
        by_cases hlast : v.required = true ∧ v.remaining ≤ leaseEarlyFence
        · left
          simp only [Watchdog.notify, Watchdog.notifySeconds, Watchdog.send, hlast.1] at hnotify
          cases henabled : d.enabled with
          | true =>
              simp only [henabled, Bool.and_true, if_true, if_pos hlast.2] at hnotify
              cases hnotify
              exact hsent.symm
          | false =>
              simp only [henabled, Bool.false_and] at hnotify
              cases hnotify
              exact hsent.symm
        · right
          refine ⟨le_rfl, fun hrequired => ?_⟩
          have hlt : leaseEarlyFence < v.remaining :=
            not_le.mp fun hle => hlast ⟨hrequired, hle⟩
          simp only [Runtime.remaining] at hlt
          omega
  · cases h
    exact .inl rfl

/-- A tick that does not get through its first keepalive ends under a lease. -/
theorem held_of_tickFeed {sending : Option Raised} {e : Raised} (h : tickFeed d v sending = .error e) :
    v.expired = false := by
  simp only [tickFeed] at h
  split at h
  · rename_i hallowed
    rw [Bool.and_eq_true] at hallowed
    simp [Runtime.expired, hallowed.1]
  · cases h

/-! ## What a step does -/

namespace AgentSystem

variable {w w' : AgentSystem} {event : AgentEvent}

/-- Everything that a step can do to the runtime. -/
theorem step_runtime (h : Step w event w') :
    w'.runtime = w.runtime ∨
      (∃ e lease, e.external = true ∧ LeaseHistory.Step w.runtime.lease e lease ∧
        w'.runtime = { w.runtime with lease := lease }) ∨
      w'.runtime = { w.runtime with running := false } ∨
      ∃ op a rest o e, w.holder = some ⟨op, .act a rest⟩ ∧
        a.perform o w.runtime = (w'.runtime, e) := by
  cases event with
  | lease e =>
      right; left
      simp only [Step, next] at h
      split at h
      · rename_i hexternal
        obtain ⟨lease, hlease, rfl⟩ := Option.map_eq_some_iff.mp h
        exact ⟨e, lease, hexternal, hlease, rfl⟩
      · cases h
  | exit =>
      cases h
      exact .inr (.inr (.inl rfl))
  | enter op =>
      simp only [Step, next] at h
      split at h <;> cases h
      exact .inl rfl
  | run o =>
      simp only [Step, next] at h
      split at h
      · rename_i op a rest hholder
        cases h
        exact .inr (.inr (.inr ⟨op, a, rest, o, _, hholder, rfl⟩))
      · cases h
  | tick sending =>
      simp only [Step, next] at h
      split at h
      · split at h <;> cases h <;> exact .inl rfl
      · cases h
  | busy sending =>
      simp only [Step, next] at h
      split at h <;> cases h
      exact .inl rfl
  | locked sending =>
      simp only [Step, next] at h
      split at h
      · split at h
        · cases h
          left
          simp only [locked]
          split
          · rfl
          · split <;> rfl
        · cases h
      · cases h
  | finish sending =>
      simp only [Step, next] at h
      split at h <;> cases h
      exact .inl rfl

/-- Recording a trip is a step of the lease. -/
theorem lease_step_of_perform {a : Action} {o : Outcome} {e : Option Raised}
    (h : a.perform o v = (v', e)) :
    v'.lease = v.lease ∨ ∃ e, LeaseHistory.Step v.lease e v'.lease := by
  rcases Action.lease_perform h with hsame | ⟨error, durable, happly, -⟩
  · exact .inl hsame
  · refine .inr ⟨.recordTrip error durable v.lease.now, ?_⟩
    simp only [LeaseHistory.Step, LeaseHistory.next, LeaseEvent.now, le_refl, if_true, happly,
      LeaseHistory.apply]
    split <;> rfl

/-- The lease stays or takes a step of its own. -/
theorem step_lease (h : Step w event w') :
    w'.runtime.lease = w.runtime.lease ∨
      ∃ e, LeaseHistory.Step w.runtime.lease e w'.runtime.lease := by
  rcases step_runtime h with hsame | ⟨e, lease, -, hstep, hw⟩ | hw | ⟨_, _, _, _, _, -, hperform⟩
  · exact .inl (by rw [hsame])
  · exact .inr ⟨e, by rwa [hw]⟩
  · exact .inl (by rw [hw])
  · exact lease_step_of_perform hperform

/-! ## The invariant -/

/-- What holds in every reachable state. -/
structure Inv (w : AgentSystem) : Prop where
  lease : w.runtime.lease.Inv
  /-- Only commands and desired states still have to write the control row. -/
  quiet : ∀ h, w.holder = some h → (∀ op, h.op = some op → op.writes = false) →
    h.rest.All Action.Quiet
  /-- The watchdog was only fed in this tick if the lease outlives the tick. -/
  waiting : ∀ near fed began, w.guard = .waiting near fed began →
    fed = [] ∨ w.runtime.Fed began
  pausing : ∀ fed began, w.guard = .pausing fed began → fed = [] ∨ w.runtime.Fed began
  ticks : ∀ r ∈ w.ticks, r.Safe w.watchdog

/-- A tick that is underway keeps its promise while the lease takes a step. -/
theorem fed_of_lease_step {e : LeaseEvent} (hfed : v.Fed began)
    (hstep : LeaseHistory.Step v.lease e v'.lease) : v'.Fed began := by
  obtain ⟨hnow, hdeadline⟩ := hfed
  simp only [LeaseHistory.Step, LeaseHistory.next] at hstep
  split at hstep <;> rename_i hlater
  · rw [Option.some.injEq] at hstep
    rcases LeaseHistory.apply_cases v.lease e with ⟨token, now, -, heq⟩ |
      ⟨c, ack, state, heq, -, -, -, -, hrecent⟩ | ⟨lease, heq, -, hlease⟩
    · rw [heq] at hstep
      simp only [Runtime.Fed, Runtime.required, ← hstep]
      exact ⟨hnow.trans hlater, hdeadline⟩
    · rw [heq] at hstep
      simp only [Runtime.Fed, Runtime.required, ← hstep, LeaseHistory.grant, HubLease.grant]
      refine ⟨hnow.trans hlater, fun _ => ?_⟩
      simp only [challengeSeconds, second] at hrecent
      simp only [leaseSeconds, leaseEarlyFence, second]
      omega
    · rw [heq, hlease] at hstep
      simp only [Runtime.Fed, Runtime.required, ← hstep]
      exact ⟨hnow.trans hlater, hdeadline⟩
  · cases hstep

theorem inv_start {required autostart : Bool} {trips now : ℕ} {lastError : String}
    {control : Option ControlBits} {d : Watchdog} :
    (start (startRuntime required trips lastError now control autostart) d).Inv :=
  ⟨LeaseHistory.inv_start, by simp [start], by simp [start], by simp [start], by simp [start]⟩

/-- A safe tick ends. -/
theorem Inv.ended (h : w.Inv) {r : TickRecord} (hr : r.Safe w.watchdog) : (w.ended r).Inv := by
  refine ⟨h.lease, h.quiet, by simp [AgentSystem.ended], by simp [AgentSystem.ended], ?_⟩
  intro r' hr'
  rcases List.mem_append.mp hr' with hr' | hr'
  · exact h.ticks r' hr'
  · exact List.mem_singleton.mp hr' ▸ hr

/-- The holder goes on with a quiet procedure, or writes the control row. -/
theorem Inv.hold (h : w.Inv) {op : Option Operation} {rest : Procedure}
    (hquiet : (∀ o, op = some o → o.writes = false) → rest.All Action.Quiet) :
    (w.hold op rest).Inv := by
  refine ⟨h.lease, ?_, h.waiting, h.pausing, h.ticks⟩
  intro holder hholder hwrites
  simp only [AgentSystem.hold] at hholder
  split at hholder <;> cases hholder
  exact hquiet hwrites

/-- The guard pauses the process. -/
theorem Inv.pause (h : w.Inv) (earlyFence : ℕ) (hfed : fed = [] ∨ w.runtime.Fed began) :
    ({ w.hold none (pauseExpiredLease earlyFence) with guard := .pausing fed began }).Inv := by
  have hheld : (w.hold none (pauseExpiredLease earlyFence)).Inv :=
    h.hold fun _ => quiet_pauseExpiredLease earlyFence
  refine ⟨hheld.lease, hheld.quiet, by simp, ?_, hheld.ticks⟩
  rintro _ _ ⟨⟩
  exact hfed

/-- The guard gets the lock. -/
theorem Inv.locked (h : w.Inv) {near : Bool} (hguard : w.guard = .waiting near fed began) :
    (w.locked near fed began sending).Inv := by
  have hfed := h.waiting near fed began hguard
  simp only [AgentSystem.locked]
  split
  · exact h.pause 0 hfed
  · split
    · exact h.pause leaseEarlyFence hfed
    · exact h.ended (safe_tickEnd hfed)

/-- The runtime takes a step while the guard and the holder stay. -/
theorem Inv.runtime_step (h : w.Inv) (hlease : v'.lease = w.runtime.lease ∨
    ∃ e, LeaseHistory.Step w.runtime.lease e v'.lease) : ({ w with runtime := v' }).Inv := by
  have hfed : ∀ {fed : List ℕ} {began}, fed = [] ∨ w.runtime.Fed began → fed = [] ∨ v'.Fed began := by
    intro fed began hfed
    refine hfed.imp_right fun hfed => ?_
    rcases hlease with hsame | ⟨e, hstep⟩
    · simpa only [Runtime.Fed, Runtime.required, hsame] using hfed
    · exact fed_of_lease_step hfed hstep
  refine ⟨?_, h.quiet, ?_, ?_, h.ticks⟩
  · rcases hlease with hsame | ⟨e, hstep⟩
    · exact hsame ▸ h.lease
    · exact h.lease.step hstep
  · exact fun near fed began hguard => hfed (h.waiting near fed began hguard)
  · exact fun fed began hguard => hfed (h.pausing fed began hguard)

/-- Every step keeps the invariant. -/
theorem Inv.step (h : w.Inv) (hstep : Step w event w') : w'.Inv := by
  cases event with
  | lease e =>
      simp only [Step, next] at hstep
      split at hstep
      · obtain ⟨lease, hlease, rfl⟩ := Option.map_eq_some_iff.mp hstep
        exact h.runtime_step (.inr ⟨e, hlease⟩)
      · cases hstep
  | exit =>
      cases hstep
      exact h.runtime_step (.inl rfl)
  | enter op =>
      simp only [Step, next] at hstep
      split at hstep <;> cases hstep
      exact h.hold fun hwrites => Operation.quiet_proc (hwrites op rfl)
  | run o =>
      simp only [Step, next] at hstep
      split at hstep
      · rename_i op a rest hholder
        cases hstep
        have hmoved : ({ w with runtime := (a.perform o w.runtime).1 }).Inv :=
          h.runtime_step (lease_step_of_perform rfl)
        exact hmoved.hold fun hwrites => (h.quiet _ hholder hwrites).2 _
      · cases hstep
  | tick sending =>
      simp only [Step, next] at hstep
      split at hstep
      · split at hstep <;> cases hstep
        · rename_i fed hfeed
          refine ⟨h.lease, h.quiet, ?_, by simp, h.ticks⟩
          rintro _ _ _ ⟨⟩
          exact fed_of_tickFeed hfeed
        · rename_i e hfeed
          exact h.ended (safe_of_held (held_of_tickFeed hfeed) _ _)
      · cases hstep
  | busy sending =>
      simp only [Step, next] at hstep
      split at hstep <;> cases hstep
      rename_i near fed began hguard
      exact h.ended (safe_tickBusy (h.waiting near fed began hguard))
  | locked sending =>
      simp only [Step, next] at hstep
      split at hstep
      · rename_i near fed began hguard
        split at hstep <;> cases hstep
        exact h.locked hguard
      · cases hstep
  | finish sending =>
      simp only [Step, next] at hstep
      split at hstep <;> cases hstep
      rename_i fed began raised hguard hholder
      have hreleased : ({ w with holder := none }).Inv :=
        ⟨h.lease, by simp, h.waiting, h.pausing, h.ticks⟩
      exact hreleased.ended (safe_tickEnd (h.pausing fed began hguard))

/-! ## The control row and the starts -/

/-- Only commands and desired states change the control row. -/
theorem Inv.control_step (h : w.Inv) (hstep : Step w event w')
    (hcontrol : w'.runtime.control ≠ w.runtime.control) :
    ∃ holder op, w.holder = some holder ∧ holder.op = some op ∧ op.writes = true := by
  rcases step_runtime hstep with hsame | ⟨e, lease, -, -, hw⟩ | hw |
    ⟨op, a, rest, o, e, hholder, hperform⟩
  · exact absurd (by rw [hsame]) hcontrol
  · exact absurd (by rw [hw]) hcontrol
  · exact absurd (by rw [hw]) hcontrol
  · by_contra hnone
    have hwrites : ∀ o, op = some o → o.writes = false := by
      intro o ho
      by_contra hwrites
      exact hnone ⟨_, o, hholder, ho, by simpa using hwrites⟩
    exact hcontrol ((h.quiet _ hholder hwrites).1.control_perform hperform)

/-- A trip is recorded without a change of the control row. -/
theorem trip_step (hstep : Step w event w') (hbefore : w.runtime.lease.lease.tripRecorded = false)
    (hafter : w'.runtime.lease.lease.tripRecorded = true) :
    w'.runtime.control = w.runtime.control := by
  rcases step_runtime hstep with hsame | ⟨e, lease, -, -, hw⟩ | hw |
    ⟨op, a, rest, o, e, -, hperform⟩
  · rw [hsame]
  · rw [hw]
  · rw [hw]
  · rcases Action.lease_perform hperform with hlease | ⟨_, _, -, hcontrol⟩
    · rw [hlease, hbefore] at hafter
      cases hafter
    · exact hcontrol

/-- Right after a grant, the intent of the Hub alone decides. -/
theorem granted_step (hstep : Step w event w')
    (hgranted : w'.runtime.lease.granted ≠ w.runtime.lease.granted) :
    w'.runtime.expired = false ∧
      w'.runtime.effectiveRunning = (w'.runtime.desiredRunning && !w'.runtime.manualStop) := by
  have hholds : w'.runtime.allowed = true ∧
      w'.runtime.lease.lease.tripRecorded = false := by
    rcases step_lease hstep with hsame | ⟨e, hlease⟩
    · exact absurd (by rw [hsame]) hgranted
    · exact (LeaseHistory.granted_step hlease).resolve_left hgranted
  simp [Runtime.expired, Runtime.effectiveRunning, hholds.1, hholds.2]

/-- The watchdog stays what it was at the start. -/
theorem watchdog_step (hstep : Step w event w') : w'.watchdog = w.watchdog := by
  cases event with
  | locked sending =>
      simp only [Step, next] at hstep
      split at hstep
      · split at hstep <;> cases hstep
        simp only [locked]
        split
        · rfl
        · split <;> rfl
      · cases hstep
  | lease e =>
      simp only [Step, next] at hstep
      split at hstep
      · obtain ⟨lease, -, rfl⟩ := Option.map_eq_some_iff.mp hstep
        rfl
      · cases hstep
  | exit =>
      cases hstep
      rfl
  | tick sending =>
      simp only [Step, next] at hstep
      split at hstep
      · split at hstep <;> cases hstep <;> rfl
      · cases hstep
  | enter op =>
      simp only [Step, next] at hstep
      split at hstep <;> cases hstep
      rfl
  | run o | busy sending | finish sending =>
      simp only [Step, next] at hstep
      split at hstep <;> cases hstep
      rfl

/-- A customer process is started under a lease, and not after a trip. -/
theorem starts_step (hstep : Step w event w') (hstarts : w'.runtime.starts ≠ w.runtime.starts) :
    w.runtime.startGuard = true := by
  rcases step_runtime hstep with hsame | ⟨e, lease, -, -, hw⟩ | hw |
    ⟨op, a, rest, o, e, -, hperform⟩
  · exact absurd (by rw [hsame]) hstarts
  · exact absurd (by rw [hw]) hstarts
  · exact absurd (by rw [hw]) hstarts
  · exact Action.starts_perform hperform hstarts

/-- The lease of a later state. -/
theorem later_of_run {es : List AgentEvent} (h : w.Inv) (hrun : Run Step w es w') :
    w.runtime.lease.Later w'.runtime.lease := by
  apply hrun.related (R := fun w w' => w.runtime.lease.Later w'.runtime.lease) h
  · exact fun _ _ _ => Inv.step
  · exact fun w => .refl _
  · exact fun _ _ _ => LeaseHistory.Later.trans
  · intro a e b ha hstep
    rcases step_lease hstep with hsame | ⟨e, hlease⟩
    · rw [hsame]
      exact .refl _
    · exact .step ha.lease hlease

end AgentSystem

open AgentSystem

/-- A process is started under a lease. -/
def startedCore : List AgentEvent :=
  let token := String.ofList (List.replicate 64 'a')
  [.lease (.challenge token (1 * second)),
    .lease (.renew (.keys (.str token) (.int 7) (.str "hash") (.int 3)) ⟨7, "hash", "", 3⟩ true
      (2 * second)),
    .enter (.command .start)] ++ List.replicate 17 (.run ⟨none, false⟩)

/-- The lease expires while another procedure holds the engine lock. -/
def busyGuard (sending : Option Raised) : List AgentEvent :=
  startedCore ++ [.enter .maintain, .lease (.wait (70 * second)), .tick none, .busy sending]

/-- The machine is suspended while the guard, which has just fed the watchdog, waits for the
lock. -/
def suspendedGuard : List AgentEvent :=
  startedCore ++ [.enter .maintain, .tick none, .lease (.wait (70 * second)), .busy none]

/-- An Agent that has just been started, with or without a watchdog. -/
def guardedStart (watched : Bool) : AgentSystem :=
  start (startRuntime true 0 "" 0 none true) ⟨watched, 90 * second⟩

/-- What can be seen of a tick. -/
def TickRecord.seen (r : TickRecord) : Bool × Bool × Bool × List ℕ :=
  (r.expired, r.running, r.triggered, r.keepalives)

/-- What can be seen of the ticks after some events. -/
def seenAfter (es : List AgentEvent) (watched : Bool) :
    Option (List (Bool × Bool × Bool × List ℕ)) :=
  (es.foldlM next (guardedStart watched)).map fun w => w.ticks.map TickRecord.seen

/-- The ticks of these runs. -/
theorem guard_evals : seenAfter (busyGuard none) false = some [(true, true, false, [])] ∧
    seenAfter (busyGuard (some ⟨"OSError", "send"⟩)) true = some [(true, true, false, [])] ∧
    seenAfter suspendedGuard true = some [(true, true, true, [58000000])] ∧
    ((busyGuard none).foldlM next (guardedStart true)).map (fun w =>
      (w.runtime.starts, w.ticks.map fun r => (r.expired, r.running, r.refused))) =
        some (1, [(true, true, false)]) := by
  refine ⟨?_, ?_, ?_, ?_⟩ <;> decide +kernel

/-- What is seen of the only tick of a run is what its record says. -/
theorem tick_of_seen {es : List AgentEvent} {watched : Bool}
    {o : Bool × Bool × Bool × List ℕ} (h : seenAfter es watched = some [o]) :
    ∃ w r, Run Step (guardedStart watched) es w ∧ r ∈ w.ticks ∧ r.seen = o := by
  obtain ⟨w, hrun, hseen⟩ := Option.map_eq_some_iff.mp h
  obtain ⟨r, hr, ho⟩ : ∃ r ∈ w.ticks, r.seen = o :=
    List.mem_map.mp (hseen ▸ List.mem_singleton_self _)
  exact ⟨w, r, Run.of_eval hrun, hr, ho⟩

/-- A process without a lease whose end nobody is asked for. -/
theorem untriggered_of_seen {es : List AgentEvent} {watched : Bool} {keepalives : List ℕ}
    (h : seenAfter es watched = some [(true, true, false, keepalives)]) :
    ¬∀ es w, Run Step (guardedStart watched) es w → ∀ r ∈ w.ticks, r.expired = true →
      r.running = true → r.triggered = true := by
  intro hall
  obtain ⟨w, r, hrun, hr, hseen⟩ := tick_of_seen h
  simp only [TickRecord.seen, Prod.mk.injEq] at hseen
  obtain ⟨hexpired, hrunning, htriggered, -⟩ := hseen
  rw [hall _ w hrun r hr hexpired hrunning] at htriggered
  cases htriggered

end Nodes
end DarkXray
