import DarkXray.Library.Procedures
import DarkXray.Nodes.Commands
import DarkXray.Nodes.LeaseRuns

/-!
# The procedures of the Agent

What the Agent does while it holds the engine lock: the ordered commands, the
application of a desired state, the reconciliation with the stored control row and
the pause for want of a lease.  The lock keeps these procedures apart from each
other, but the clock, the lease and the customer process change between any two
of their actions.

Main results:

- Theorem {lit}`Action.starts_perform`: a customer process is only started while the
  lease allows it and no trip is recorded.
- Theorem {lit}`wantsRunning_reconcileControl`: under a lease, reconciliation follows
  the control row.
- Theorem {lit}`Operation.quiet_proc`: only ordered commands and desired states write
  the control row.
-/

namespace DarkXray
namespace Nodes

open Library Policy

/-! ## The runtime -/

/-- An exception: its class and its text. -/
structure Raised where
  name : String
  message : String
deriving DecidableEq, Repr

/-- A {lit}`CoreError`. -/
def coreError (message : String) : Raised :=
  ⟨"CoreError", message⟩

/-- The row of {lit}`node_runtime_control`. -/
structure ControlBits where
  desiredRunning : Bool
  manualStop : Bool
deriving DecidableEq, Repr

/-- The state that the procedures share; {lit}`running` is that of the customer
process, {lit}`autostart` is {lit}`core_autostart`, and {lit}`starts` counts the
processes that were ever started. -/
structure Runtime where
  lease : LeaseHistory
  running : Bool
  wantsRunning : Bool
  control : Option ControlBits
  autostart : Bool
  starts : ℕ

namespace Runtime

/-- {lit}`hub_lease.required`. -/
def required (v : Runtime) : Bool :=
  v.lease.lease.required

/-- {lit}`hub_lease.allowed`. -/
def allowed (v : Runtime) : Bool :=
  v.lease.lease.allowed v.lease.now

/-- The lease is required and not held. -/
def expired (v : Runtime) : Bool :=
  v.required && !v.allowed

/-- {lit}`lease.deadline-lease.clock()`, which is zero from the deadline on. -/
def remaining (v : Runtime) : ℕ :=
  v.lease.lease.deadline - v.lease.now

/-- {lit}`engine.start_guard`. -/
def startGuard (v : Runtime) : Bool :=
  v.allowed && !v.lease.lease.tripRecorded

/-- {lit}`desired_running` of {lit}`control_status`. -/
def desiredRunning (v : Runtime) : Bool :=
  v.control.elim v.autostart ControlBits.desiredRunning

/-- {lit}`manual_stop` of {lit}`control_status`. -/
def manualStop (v : Runtime) : Bool :=
  v.control.elim false ControlBits.manualStop

/-- {lit}`effective_running` of {lit}`control_status`. -/
def effectiveRunning (v : Runtime) : Bool :=
  v.desiredRunning && !v.manualStop && v.allowed && !v.lease.lease.tripRecorded

end Runtime

/-! ## Actions -/

/-- The actions of the procedures. -/
inductive Action where
  /-- Read the state. -/
  | look
  /-- Work that touches nothing of the state: files, subprocesses, other tables. -/
  | external
  /-- {lit}`_spawn` up to the start of the process. -/
  | spawn
  /-- {lit}`_stop_child`. -/
  | stopChild
  /-- Assign {lit}`wants_running`. -/
  | setWants (wants : Bool)
  /-- A transaction that writes the control row. -/
  | writeControl (row : Option ControlBits)
  /-- {lit}`record_trip`. -/
  | recordTrip (error : String)
deriving DecidableEq, Repr

/-- What the environment contributes to an action: an exception, or the answer to the
question that the caller asks next (whether a file exists, whether two hashes agree). -/
structure Outcome where
  raised : Option Raised
  answer : Bool
deriving DecidableEq, Repr

/-- What the caller gets back: the exception or the answer, and the state. -/
structure Reply where
  raised : Option Raised
  answer : Bool
  view : Runtime

/-- The effect of an action, and its exception. -/
def Action.perform (o : Outcome) (v : Runtime) : Action → Runtime × Option Raised
  | .look => (v, none)
  | .external => (v, o.raised)
  | .spawn =>
      if v.startGuard = false then
        (v, some (coreError "Node is waiting for a valid Hub accounting lease"))
      else if o.raised.isSome then (v, o.raised)
      else ({ v with running := true, starts := v.starts + 1 }, none)
  | .stopChild =>
      if o.raised.isSome then (v, o.raised) else ({ v with running := false }, none)
  | .setWants wants => ({ v with wantsRunning := wants }, none)
  | .writeControl row =>
      if o.raised.isSome then (v, o.raised) else ({ v with control := row }, none)
  | .recordTrip error =>
      let durable := o.raised.isNone
      ({ v with lease := v.lease.apply (.recordTrip error durable v.lease.now) },
        if v.lease.lease.tripRecorded then none else o.raised)

/-! ## Procedures -/

/-- Procedures that return or raise. -/
abbrev Procedure := Proc Action Reply (Option Raised)

/-- Perform an action for its exception. -/
def call (a : Action) : Procedure :=
  .act a fun r => .done r.raised

/-- Read the state. -/
def look (f : Runtime → Procedure) : Procedure :=
  .act .look fun r => f r.view

/-- Raise, or go on with the answer and the state. -/
def ask (f : Bool → Runtime → Procedure) : Procedure :=
  .act .external fun r =>
    match r.raised with
    | some e => .done (some e)
    | none => f r.answer r.view

/-- {lit}`_spawn`: start the process and wait until it answers; a process that does not
answer is stopped, unless it is gone. -/
def spawn : Procedure :=
  (call .spawn).andThen <| .act .external fun r =>
    match r.raised with
    | none => .done none
    | some e =>
        if r.answer then .done (some e)
        else (call .stopChild).andThen (.done (some e))

/-- The exception handler of {lit}`apply`: go back to the previous configuration. -/
def recover (was old : Bool) (e : Raised) : Procedure :=
  (call .stopChild).andThen <|
    if old then
      (call .external).andThen <|
        if was then
          spawn.bind fun
            | none => .done (some (coreError
                (e.message ++ "; previous process configuration restored")))
            | some _ => .done (some (coreError
                (e.message ++ "; previous configuration written, restart failed")))
        else .done (some (coreError (e.message ++ "; no previous running generation")))
    else .done (some (coreError (e.message ++ "; no previous running generation")))

/-- The end of {lit}`apply`: {lit}`wants_running` follows the process. -/
def adopt : Procedure :=
  look fun v => call (.setWants v.running)

/-- {lit}`CoreEngine.apply`. -/
def engineApply (start force : Bool) : Procedure :=
  ask fun sameHash built =>
    if !force && built.running && sameHash then .done none
    else
      (call .external).andThen <| ask fun old v =>
        (call .external).andThen <|
          (if v.running then call .stopChild else call .external).andThen <|
            (call .external).andThen <| look fun v' =>
              if start || v.running || v'.wantsRunning then
                spawn.bind fun
                  | some e => recover v.running old e
                  | none => adopt
              else adopt

/-- {lit}`CoreEngine.command('stop')`. -/
def engineStop : Procedure :=
  (call .external).andThen <| (call (.setWants false)).andThen (call .stopChild)

/-- {lit}`CoreEngine.command`. -/
def engineCommand : RunAction → Procedure
  | .start => engineApply true false
  | .restart => engineApply true true
  | .stop => engineStop

/-- The exception handler of {lit}`_command_locked`. -/
def undoControl (previous : Runtime) (e : Raised) : Procedure :=
  (call (.writeControl (some ⟨previous.desiredRunning, previous.manualStop⟩))).andThen <|
    (call (.setWants previous.effectiveRunning)).andThen (.done (some e))

/-- {lit}`_command_locked`. -/
def commandLocked (action : RunAction) : Procedure :=
  (call .external).andThen <| look fun previous =>
    if action = .stop then
      (call (.writeControl (some ⟨previous.desiredRunning, true⟩))).andThen <|
        (call (.setWants false)).andThen (engineCommand .stop)
    else
      look fun v =>
        if v.startGuard = false then
          .done (some (coreError "Waiting for Hub accounting lease before Start/Restart"))
        else
          (call (.writeControl (some ⟨true, false⟩))).andThen <|
            (engineCommand action).bind fun
              | none => .done none
              | some e => undoControl previous e

/-- {lit}`ordered_command`: the fence and the receipts are in the database. -/
def orderedCommandProc (action : RunAction) : Procedure :=
  (call .external).andThen <| (commandLocked action).bind fun result =>
    (call .external).andThen (.done result)

/-- The last ten seconds of a lease: {lit}`LEASE_EARLY_FENCE_SECONDS`. -/
def leaseEarlyFence : ℕ := 10 * second

/-- The text that {lit}`pause_expired_lease` records. -/
def tripError (remaining : ℕ) (snapshot : Option Raised) : String :=
  let error :=
    if 0 < remaining then
      "Proactive lease safety Stop before expiration; awaiting Hub renewal"
    else ""
  match snapshot with
  | none => error
  | some e =>
      (if error = "" then "" else error ++ "; ") ++
        "Final lease-expiry traffic snapshot failed: " ++ e.message

/-- {lit}`pause_expired_lease`. -/
def pauseExpiredLease (earlyFence : ℕ) : Procedure :=
  look fun v =>
    if v.required = false ∨ (0 < v.remaining ∧ (earlyFence = 0 ∨ earlyFence < v.remaining)) then
      .done none
    else
      .act (.setWants false) fun r =>
        if r.view.running = false then .done none
        else
          .act .external fun snapshot =>
            (call .stopChild).andThen (call (.recordTrip (tripError v.remaining snapshot.raised)))

/-- {lit}`reconcile_control`. -/
def reconcileControl : Procedure :=
  .act (.setWants false) fun r =>
    (call (.setWants r.view.effectiveRunning)).andThen <| look fun v =>
      if v.expired then pauseExpiredLease 0
      else if !r.view.effectiveRunning && v.running then engineStop
      else .done none

/-- What the Agent does after a renewal: {lit}`accounting_lease`. -/
def afterRenewal : Procedure :=
  reconcileControl.andThen <| look fun v =>
    if v.effectiveRunning = false then .done none
    else if v.running = false then engineCommand .start
    else ask fun sameHash _ => if sameHash then .done none else engineCommand .start

/-- {lit}`flush`: exceptions are only noted. -/
def flush : Procedure :=
  ask fun tooSoon v =>
    if !v.wantsRunning || (!v.running && tooSoon) then .done none
    else (engineApply true false).bind fun _ => .done none

/-- A round of the maintenance loop. -/
def maintain : Procedure :=
  reconcileControl.bind fun _ => (call .external).bind fun _ => flush

/-- The exception handler of {lit}`_apply_locked`; {lit}`snap` is the control row of the
snapshot, if there is one. -/
def rollbackProc (snap : Option (Option ControlBits)) (was wanted : Bool) (e : Raised) :
    Procedure :=
  (match snap with
    | some row => call (.writeControl row)
    | none => .done none).bind fun _ =>
  (call .external).bind fun _ =>
  ((if was then engineCommand .start else engineCommand .stop).andThen
    (call (.setWants wanted))).bind fun _ =>
  (call .external).andThen (.done (some e))

/-- The second half of the body of {lit}`_apply_locked`, after the snapshot. -/
def installProc (desired effective : Bool) (control : Runtime) : Procedure :=
  (call .external).andThen <|
    (if effective then engineCommand .start else call .external).andThen <|
      (call (.writeControl (some ⟨desired, control.manualStop⟩))).andThen (call .external)

/-- The first half: the old generation is stopped, or only its counters are read. -/
def stopOrKeep (r : Reply) (keepRunning : Bool) : Procedure :=
  match r.raised with
  | some e => .done (some e)
  | none => if keepRunning then call .external else engineCommand .stop

/-- {lit}`_apply_locked`, as far as it concerns the process and its control. -/
def applyLockedProc (payloadRunning : Bool) : Procedure :=
  ask fun alreadyApplied _ =>
    if alreadyApplied then reconcileControl.andThen (call .external)
    else
      (call .external).andThen <| ask fun ordered v =>
        let desired := if ordered then v.desiredRunning else payloadRunning
        let effective := desired && !v.manualStop && v.allowed
        .act .external fun keep =>
          (stopOrKeep keep (effective && v.running && keep.answer)).bind fun
          | some e => rollbackProc none v.running v.wantsRunning e
          | none => .act .external fun snap =>
              match snap.raised with
              | some e => rollbackProc none v.running v.wantsRunning e
              | none => (installProc desired effective v).bind fun
                  | some e => rollbackProc (some snap.view.control) v.running v.wantsRunning e
                  | none => .done none

/-- An uninterrupted action in an environment. -/
def performIn (env : Runtime → Action → Outcome) (v : Runtime) (a : Action) : Reply × Runtime :=
  let o := env v a
  let result := a.perform o v
  (⟨result.2, o.answer, result.1⟩, result.1)

/-! ## Operations -/

/-- What can take the engine lock, besides the guard. -/
inductive Operation where
  | command (action : RunAction)
  | apply (payloadRunning : Bool)
  | reconcile
  | pause (earlyFence : ℕ)
  | renewed
  | maintain
deriving DecidableEq, Repr

/-- The procedure of an operation. -/
def Operation.proc : Operation → Procedure
  | .command action => orderedCommandProc action
  | .apply payloadRunning => applyLockedProc payloadRunning
  | .reconcile => reconcileControl
  | .pause earlyFence => pauseExpiredLease earlyFence
  | .renewed => afterRenewal
  | .maintain => Nodes.maintain

/-- The operations that carry an intent of the Hub. -/
def Operation.writes : Operation → Bool
  | .command _ => true
  | .apply _ => true
  | .reconcile => false
  | .pause _ => false
  | .renewed => false
  | .maintain => false

/-! ## What the actions and procedures do -/

variable {v v' : Runtime} {a : Action} {o : Outcome} {e : Option Raised}

/-- A customer process is only started while the guard allows it. -/
theorem Action.starts_perform (h : a.perform o v = (v', e)) (hstarts : v'.starts ≠ v.starts) :
    v.startGuard = true := by
  cases hguard : v.startGuard with
  | true => rfl
  | false =>
      cases a with
      | spawn =>
          simp only [perform, hguard, if_true, Prod.mk.injEq] at h
          exact absurd (h.1 ▸ rfl) hstarts
      | stopChild | writeControl row =>
          simp only [perform] at h
          split at h <;> cases h <;> exact absurd rfl hstarts
      | look | external | setWants wants | recordTrip error =>
          cases h
          exact absurd rfl hstarts

/-- The only action on the lease records a trip. -/
theorem Action.lease_perform (h : a.perform o v = (v', e)) :
    v'.lease = v.lease ∨ ∃ error durable,
      v'.lease = v.lease.apply (.recordTrip error durable v.lease.now) ∧
        v'.control = v.control := by
  cases a with
  | recordTrip error =>
      cases h
      exact .inr ⟨error, _, rfl, rfl⟩
  | spawn =>
      simp only [perform] at h
      split at h
      · cases h
        exact .inl rfl
      · split at h <;> cases h <;> exact .inl rfl
  | stopChild | writeControl row =>
      simp only [perform] at h
      split at h <;> cases h <;> exact .inl rfl
  | look | external | setWants wants =>
      cases h
      exact .inl rfl

/-- Actions that leave the control row alone. -/
def Action.Quiet : Action → Prop
  | .writeControl _ => False
  | _ => True

/-- A quiet action leaves the control state. -/
theorem Action.Quiet.control_perform (ha : a.Quiet) (h : a.perform o v = (v', e)) :
    v'.control = v.control := by
  cases a with
  | writeControl row => cases ha
  | spawn =>
      simp only [perform] at h
      split at h
      · cases h
        rfl
      · split at h <;> cases h <;> rfl
  | stopChild =>
      simp only [perform] at h
      split at h <;> cases h <;> rfl
  | look | external | setWants wants | recordTrip error =>
      cases h
      rfl

/-- A quiet action alone is quiet. -/
theorem quiet_call (ha : a.Quiet) : (call a).All Action.Quiet :=
  ⟨ha, fun _ => trivial⟩

/-- A quiet action before a quiet procedure is quiet. -/
theorem quiet_andThen {p : Procedure} (ha : a.Quiet) (hp : p.All Action.Quiet) :
    ((call a).andThen p).All Action.Quiet :=
  (quiet_call ha).andThen hp

/-- A procedure is quiet if it is quiet whatever it reads. -/
theorem quiet_look {f : Runtime → Procedure} (hf : ∀ v, (f v).All Action.Quiet) :
    (look f).All Action.Quiet :=
  ⟨trivial, fun r => hf r.view⟩

/-- A procedure is quiet if it is quiet whatever the answer. -/
theorem quiet_ask {f : Bool → Runtime → Procedure} (hf : ∀ b v, (f b v).All Action.Quiet) :
    (ask f).All Action.Quiet := by
  refine ⟨trivial, fun r => ?_⟩
  dsimp only
  split
  · trivial
  · exact hf _ _

/-- Starting the process leaves the control state. -/
theorem quiet_spawn : spawn.All Action.Quiet := by
  refine quiet_andThen trivial ?_
  refine ⟨trivial, fun r => ?_⟩
  dsimp only
  split
  · trivial
  · split
    · trivial
    · exact quiet_andThen trivial trivial

/-- A recovery leaves the control state. -/
theorem quiet_recover (was old : Bool) (e : Raised) : (recover was old e).All Action.Quiet := by
  refine quiet_andThen trivial ?_
  split
  · refine quiet_andThen trivial ?_
    split
    · exact quiet_spawn.bind fun
        | none => trivial
        | some _ => trivial
    · trivial
  · trivial

/-- Applying a configuration leaves the control state. -/
theorem quiet_engineApply (start force : Bool) : (engineApply start force).All Action.Quiet := by
  have hadopt : adopt.All Action.Quiet := quiet_look fun v => quiet_call trivial
  apply quiet_ask
  intro sameHash built
  split
  · trivial
  · refine quiet_andThen trivial ?_
    apply quiet_ask
    intro old v
    refine quiet_andThen trivial ?_
    apply Proc.All.andThen
    · split <;> exact quiet_call trivial
    · refine quiet_andThen trivial ?_
      apply quiet_look
      intro v'
      split
      · exact quiet_spawn.bind fun
          | some e => quiet_recover _ _ e
          | none => hadopt
      · exact hadopt

/-- Stopping the process leaves the control state. -/
theorem quiet_engineStop : engineStop.All Action.Quiet :=
  quiet_andThen trivial (quiet_andThen trivial (quiet_call trivial))

/-- A pause for an expired lease leaves the control state. -/
theorem quiet_pauseExpiredLease (earlyFence : ℕ) :
    (pauseExpiredLease earlyFence).All Action.Quiet := by
  apply quiet_look
  intro v
  split
  · trivial
  · refine ⟨trivial, fun r => ?_⟩
    dsimp only
    split
    · trivial
    · refine ⟨trivial, fun snapshot => ?_⟩
      exact quiet_andThen trivial (quiet_call trivial)

/-- Reconciling with the control state leaves it. -/
theorem quiet_reconcileControl : reconcileControl.All Action.Quiet := by
  refine ⟨trivial, fun r => ?_⟩
  refine quiet_andThen trivial ?_
  apply quiet_look
  intro v
  split
  · exact quiet_pauseExpiredLease 0
  · split
    · exact quiet_engineStop
    · trivial

/-- What follows a renewal leaves the control state. -/
theorem quiet_afterRenewal : afterRenewal.All Action.Quiet := by
  apply quiet_reconcileControl.andThen
  apply quiet_look
  intro v
  split
  · trivial
  · split
    · exact quiet_engineApply true false
    · apply quiet_ask
      intro sameHash _
      split
      · trivial
      · exact quiet_engineApply true false

/-- Maintenance leaves the control state. -/
theorem quiet_maintain : maintain.All Action.Quiet := by
  refine quiet_reconcileControl.bind fun _ => Proc.All.bind (quiet_call trivial) fun _ => ?_
  apply quiet_ask
  intro tooSoon v
  split
  · trivial
  · exact (quiet_engineApply true false).bind fun _ => trivial

/-- Stopping the engine leaves {lit}`wants_running` off. -/
theorem wantsRunning_engineStop (env : Runtime → Action → Outcome)
    (hoff : v.wantsRunning = false) :
    (engineStop.eval (performIn env) v).2.wantsRunning = false := by
  have hstop : ∀ v : Runtime, v.wantsRunning = false →
      ((call .stopChild).eval (performIn env) v).2.wantsRunning = false := by
    intro v hoff
    simp only [call, Proc.eval, performIn, Action.perform]
    split <;> exact hoff
  rw [engineStop, Proc.andThen, Proc.eval_bind]
  have hkept : ((call .external).eval (performIn env) v).2 = v := rfl
  rw [hkept]
  split
  · exact hoff
  · exact hstop _ rfl

/-- While the lease is held, reconciliation makes {lit}`wants_running` the stored intent. -/
theorem wantsRunning_reconcileControl (env : Runtime → Action → Outcome)
    (hheld : v.expired = false) :
    (reconcileControl.eval (performIn env) v).2.wantsRunning = v.effectiveRunning := by
  let v₁ : Runtime := { v with wantsRunning := v.effectiveRunning }
  change ((if v₁.expired = true then pauseExpiredLease 0
    else if (!v.effectiveRunning && v₁.running) = true then engineStop
    else .done none).eval (performIn env) v₁).2.wantsRunning = _
  have hheld₁ : v₁.expired = false := hheld
  rw [hheld₁, if_neg Bool.false_ne_true]
  split
  · rename_i hstop
    rw [Bool.and_eq_true, Bool.not_eq_true'] at hstop
    rw [hstop.1]
    exact wantsRunning_engineStop env hstop.1
  · rfl
/-- Only commands and desired states write the control row. -/
theorem Operation.quiet_proc {op : Operation} (h : op.writes = false) :
    op.proc.All Action.Quiet := by
  cases op with
  | command action => cases h
  | apply payloadRunning => cases h
  | reconcile => exact quiet_reconcileControl
  | pause earlyFence => exact quiet_pauseExpiredLease earlyFence
  | renewed => exact quiet_afterRenewal
  | maintain => exact quiet_maintain

end Nodes
end DarkXray
