import DarkXray.Library.Runs

/-!
# Activation of a core configuration

{lit}`CoreEngine.apply`, {lit}`command` and {lit}`flush`: a new configuration is validated,
the traffic of the running child is taken into account, the child is stopped, the
configuration is written and a new child is spawned; a failed spawn is rolled back.  Every
step may fail, and the child may exit at any time.

Main results:

- Theorem {lit}`CoreRuntime.perform_consistent`: a running child runs the active
  configuration, and was only stopped after a snapshot of its traffic.
- Theorem {lit}`CoreRuntime.atomic_iff`: a failed call leaves the old generation, unless the
  rollback cannot write the previous configuration.
- Theorem {lit}`activation_atomic`: both over all runs.
- Theorem {lit}`rollback_unwritten`: a rollback that cannot write leaves the new
  configuration and the old hash behind.
-/

namespace DarkXray
namespace Core

open Library

variable {κ : Type}

/-! ## State -/

/-- A child process: the configuration that it was spawned with, and whether its spawn
succeeded. -/
structure Child (κ : Type) where
  config : κ
  started : Bool
deriving DecidableEq

/-- What happens to children: their traffic is taken into account, or they are stopped. -/
inductive ChildEvent (κ : Type) where
  | snapshot (child : Child κ)
  | stopped (child : Child κ)
deriving DecidableEq

/-- The runtime state of the core.  An exited process is no child; {lit}`active` and
{lit}`previous` are the contents of the files, {lit}`desired` is what {lit}`build_config`
returns unless it raises. -/
structure CoreRuntime (κ : Type) where
  child : Option (Child κ)
  active : Option κ
  previous : Option κ
  appliedHash : String
  wantsRunning : Bool
  desired : Option κ
  /-- The newest event comes first. -/
  log : List (ChildEvent κ)
deriving DecidableEq

/-- The ways in which {lit}`_spawn` ends. -/
inductive SpawnOutcome where
  /-- Before a process exists: the start guard, the log file, the binary. -/
  | refused
  /-- The process exited during startup. -/
  | exited
  /-- The API did not become ready in time; the process is stopped. -/
  | notReady
  /-- Another exception; the process goes on. -/
  | interrupted
  | ready
deriving DecidableEq

/-- The points of {lit}`apply` and {lit}`command` at which the process is polled. -/
inductive Poll where
  | shortcut
  | before
  | snapshot
  | stop
  | spawned
  | final
  | respawned
deriving DecidableEq

/-- What the steps of one call meet. -/
structure Outcomes where
  writesEnabled : Bool
  validated : Bool
  readable : Bool
  snapshot : Bool
  portFree : Bool
  previousWritten : Bool
  activeWritten : Bool
  spawn : SpawnOutcome
  restored : Bool
  respawn : SpawnOutcome
  /-- The child has exited just before it is polled. -/
  dies : Poll → Bool

/-- How the rollback of a failed spawn ended. -/
inductive Rollback where
  | noPrevious
  | restored
  | restartFailed
deriving DecidableEq

/-- The exceptions. -/
inductive ApplyError where
  | disabled
  | build
  | validation
  | unreadable
  | snapshot
  | portOccupied
  | previousUnwritten
  | activeUnwritten
  /-- The new generation could not be spawned. -/
  | spawning (rollback : Rollback)
  /-- The new generation could not be spawned, and the rollback raised an exception. -/
  | restoring
deriving DecidableEq

namespace CoreRuntime

/-! ## Operations -/

/-- {lit}`running`. -/
def running (s : CoreRuntime κ) : Bool :=
  s.child.isSome

/-- The child may have exited. -/
def poll (dies : Bool) (s : CoreRuntime κ) : CoreRuntime κ :=
  if dies then { s with child := none } else s

/-- {lit}`_stop_child`. -/
def stopChild (s : CoreRuntime κ) : CoreRuntime κ :=
  match s.child with
  | none => s
  | some c => { s with child := none, log := .stopped c :: s.log }

/-- {lit}`collect_stats(force=True, strict=strict)`: whether it returns. -/
def collectStats (strict ok : Bool) (s : CoreRuntime κ) : Bool × CoreRuntime κ :=
  match s.child with
  | none => (true, s)
  | some c => if ok then (true, { s with log := .snapshot c :: s.log }) else (!strict, s)

/-- {lit}`_spawn`: whether it returns.  The new process reads the active configuration. -/
def spawn (outcome : SpawnOutcome) (s : CoreRuntime κ) : Bool × CoreRuntime κ :=
  match s.active with
  | none => (false, { s with child := none })
  | some config =>
      match outcome with
      | .refused => (false, s)
      | .exited => (false, { s with child := none })
      | .notReady => (false, stopChild { s with child := some ⟨config, false⟩ })
      | .interrupted => (false, { s with child := some ⟨config, false⟩ })
      | .ready => (true, { s with child := some ⟨config, true⟩ })

/-- The part of {lit}`apply` that takes the old generation down: whether it was running. -/
def halt (o : Outcomes) (s : CoreRuntime κ) : Except ApplyError Bool × CoreRuntime κ :=
  let s := s.poll (o.dies .before)
  let was := s.running
  let counted := collectStats was o.snapshot (s.poll (o.dies .snapshot))
  if !counted.1 then (.error .snapshot, counted.2)
  else if was then (.ok true, stopChild (counted.2.poll (o.dies .stop)))
  else if !o.portFree then (.error .portOccupied, counted.2)
  else (.ok false, counted.2)

/-- The exception handler of {lit}`apply`. -/
def rollBack (was : Bool) (old : Option κ) (oldhash : String) (o : Outcomes)
    (s : CoreRuntime κ) : ApplyError × CoreRuntime κ :=
  let s := stopChild s
  match old with
  | none => (.spawning .noPrevious, { s with appliedHash := if s.running then oldhash else "" })
  | some config =>
      -- This write is outside the inner exception handler.
      if !o.restored then (.restoring, s)
      else
        let s := { s with active := some config }
        if was then
          let again := spawn o.respawn s
          let s := again.2.poll (o.dies .respawned)
          (.spawning (if again.1 then .restored else .restartFailed),
            { s with appliedHash := if s.running then oldhash else "" })
        else
          (.spawning .noPrevious, { s with appliedHash := if s.running then oldhash else "" })

/-- The part of {lit}`apply` that brings the new generation up. -/
def activate (hash : κ → String) (config : κ) (start was : Bool) (old : Option κ)
    (oldhash : String) (o : Outcomes) (s : CoreRuntime κ) :
    Except ApplyError Unit × CoreRuntime κ :=
  if old.isSome && !o.previousWritten then (.error .previousUnwritten, s)
  else
    let s := if old.isSome then { s with previous := old } else s
    if !o.activeWritten then (.error .activeUnwritten, s)
    else
      let s := { s with active := some config }
      let attempt := if start || was || s.wantsRunning then spawn o.spawn s else (true, s)
      if !attempt.1 then
        let undone := rollBack was old oldhash o attempt.2
        (.error undone.1, undone.2)
      else
        let s := attempt.2.poll (o.dies .spawned)
        let s := { s with appliedHash := if s.running then hash config else "" }
        let s := s.poll (o.dies .final)
        (.ok (), { s with wantsRunning := s.running })

/-- {lit}`apply`. -/
def apply (hash : κ → String) (start force : Bool) (o : Outcomes) (s : CoreRuntime κ) :
    Except ApplyError Unit × CoreRuntime κ :=
  if !o.writesEnabled then (.error .disabled, s)
  else
    match s.desired with
    | none => (.error .build, s)
    | some config =>
        let s := s.poll (o.dies .shortcut)
        if !force && s.running && hash config = s.appliedHash then (.ok (), s)
        else if !o.validated then (.error .validation, s)
        else if !o.readable then (.error .unreadable, s)
        else
          match halt o s with
          | (.error e, t) => (.error e, t)
          | (.ok was, t) => activate hash config start was s.active s.appliedHash o t

/-- {lit}`command('stop')`. -/
def stop (o : Outcomes) (s : CoreRuntime κ) : Except ApplyError Unit × CoreRuntime κ :=
  if !o.writesEnabled then (.error .disabled, s)
  else
    let s := s.poll (o.dies .before)
    let counted := collectStats s.running o.snapshot (s.poll (o.dies .snapshot))
    if !counted.1 then (.error .snapshot, counted.2)
    else
      let s := stopChild ({ counted.2 with wantsRunning := false }.poll (o.dies .stop))
      (.ok (), { s with appliedHash := "" })

/-- {lit}`command('validate')`; the candidate file is read by nothing else. -/
def validate (o : Outcomes) (s : CoreRuntime κ) : Except ApplyError Unit × CoreRuntime κ :=
  if !o.writesEnabled then (.error .disabled, s)
  else if s.desired.isNone then (.error .build, s)
  else if !o.validated then (.error .validation, s)
  else (.ok (), s)

end CoreRuntime

/-- The actions of {lit}`command`. -/
inductive CoreAction where
  | validate
  | restart
  | start
  | apply
  | stop
deriving DecidableEq

/-- What happens to the core. -/
inductive CoreCall (κ : Type) where
  | apply (start force : Bool) (o : Outcomes)
  | command (action : CoreAction) (o : Outcomes)
  /-- {lit}`flush`: whether it waits after a recent start. -/
  | flush (recent : Bool) (o : Outcomes)
  /-- The child exits. -/
  | crash
  /-- The configuration is edited. -/
  | edit (desired : Option κ)

namespace CoreRuntime

/-- One call; {lit}`flush` records an exception and does not raise it. -/
def perform (hash : κ → String) (s : CoreRuntime κ) :
    CoreCall κ → Except ApplyError Unit × CoreRuntime κ
  | .apply start force o => apply hash start force o s
  | .command .validate o => validate o s
  | .command .restart o => apply hash true true o s
  | .command .start o => apply hash true false o s
  | .command .apply o => apply hash true false o s
  | .command .stop o => stop o s
  | .flush recent o =>
      if !s.wantsRunning || !s.running && recent then (.ok (), s)
      else apply hash true false o s
  | .crash => (.ok (), { s with child := none })
  | .edit desired => (.ok (), { s with desired := desired })

/-- The step relation of runs. -/
def Step (hash : κ → String) (s : CoreRuntime κ) (call : CoreCall κ) (t : CoreRuntime κ) :
    Prop :=
  (perform hash s call).2 = t

/-! ## Properties -/

/-- Every stop of a child whose spawn succeeded follows a snapshot of its traffic at once. -/
def Counted : List (ChildEvent κ) → Prop
  | [] => True
  | .snapshot _ :: rest => Counted rest
  | .stopped c :: rest => (c.started = true → rest.head? = some (.snapshot c)) ∧ Counted rest

/-- A running child runs the active configuration, whose hash is the applied one. -/
def Current (hash : κ → String) (s : CoreRuntime κ) : Prop :=
  ∀ c, s.child = some c → s.active = some c.config ∧ s.appliedHash = hash c.config

/-- The invariant of a run. -/
structure Consistent (hash : κ → String) (s : CoreRuntime κ) : Prop where
  current : Current hash s
  counted : Counted s.log

/-- The generation is the old one, unless it has exited in the meantime. -/
structure Undisturbed (o : Outcomes) (s t : CoreRuntime κ) : Prop where
  active : t.active = s.active
  appliedHash : t.appliedHash = s.appliedHash
  child : t.child = s.child ∨ (t.child = none ∧ ∃ p, o.dies p = true)

/-- The previous configuration is active again, and runs or nothing does. -/
structure RolledBack (hash : κ → String) (s t : CoreRuntime κ) : Prop where
  active : ∀ old, s.active = some old → t.active = some old
  child : (∃ c, t.child = some c ∧ s.active = some c.config ∧ t.appliedHash = hash c.config) ∨
    (t.child = none ∧ t.appliedHash = "")

/-- What an exception may leave behind. -/
def Atomic (hash : κ → String) (o : Outcomes) (s t : CoreRuntime κ) : ApplyError → Prop
  | .validation | .snapshot => Undisturbed o s t
  | .spawning _ | .restoring => RolledBack hash s t
  | _ => True

/-- The rollback of {lit}`apply` is reached and cannot write: every step up to the spawn of
the new generation succeeds, and the spawn and the write of the previous configuration fail. -/
structure WriteLost (hash : κ → String) (start force : Bool) (o : Outcomes)
    (s : CoreRuntime κ) : Prop where
  writesEnabled : o.writesEnabled = true
  built : ∃ config, s.desired = some config ∧
    ¬ (force = false ∧ (s.poll (o.dies .shortcut)).running = true ∧ hash config = s.appliedHash)
  validated : o.validated = true
  readable : o.readable = true
  snapshot : o.snapshot = true ∨
    (((s.poll (o.dies .shortcut)).poll (o.dies .before)).poll (o.dies .snapshot)).running = false
  port : ((s.poll (o.dies .shortcut)).poll (o.dies .before)).running = true ∨ o.portFree = true
  previous : s.active.isSome = true
  previousWritten : o.previousWritten = true
  activeWritten : o.activeWritten = true
  attempted : start = true ∨ ((s.poll (o.dies .shortcut)).poll (o.dies .before)).running = true ∨
    s.wantsRunning = true
  fails : o.spawn ≠ .ready
  unwritten : o.restored = false

/-- The rollback cannot write, and the files or the hash tell the generations apart. -/
def Unrestored (hash : κ → String) (start force : Bool) (o : Outcomes) (s : CoreRuntime κ) :
    Prop :=
  WriteLost hash start force o s ∧ (s.desired ≠ s.active ∨ s.appliedHash ≠ "")

/-- The start and force flags with which a call comes to {lit}`apply`. -/
def applies (s : CoreRuntime κ) : CoreCall κ → Option (Bool × Bool × Outcomes)
  | .apply start force o => some (start, force, o)
  | .command .restart o => some (true, true, o)
  | .command .start o | .command .apply o => some (true, false, o)
  | .flush recent o => if !s.wantsRunning || !s.running && recent then none else some (true, false, o)
  | _ => none

/-- The outcomes of a call. -/
def outcomes : CoreCall κ → Option Outcomes
  | .apply _ _ o | .command _ o | .flush _ o => some o
  | _ => none

/-- A call whose rollback cannot write. -/
def Unwritable (hash : κ → String) (s : CoreRuntime κ) (call : CoreCall κ) : Prop :=
  ∃ start force o, applies s call = some (start, force, o) ∧ Unrestored hash start force o s

/-- A call leaves behind what its exception allows. -/
def AtomicCall (hash : κ → String) (s : CoreRuntime κ) (call : CoreCall κ) : Prop :=
  ∀ e o, (perform hash s call).1 = .error e → outcomes call = some o →
    Atomic hash o s (perform hash s call).2 e

/-! ## The operations -/

section Operations

variable {hash : κ → String} {o : Outcomes} {s : CoreRuntime κ}

/-- Polling leaves the active configuration. -/
@[simp] theorem poll_active (dies : Bool) : (s.poll dies).active = s.active := by
  cases dies <;> rfl

/-- Polling leaves the applied hash. -/
@[simp] theorem poll_appliedHash (dies : Bool) : (s.poll dies).appliedHash = s.appliedHash := by
  cases dies <;> rfl

/-- Polling leaves whether the core should run. -/
@[simp] theorem poll_wantsRunning (dies : Bool) :
    (s.poll dies).wantsRunning = s.wantsRunning := by
  cases dies <;> rfl

/-- Polling leaves the log. -/
@[simp] theorem poll_log (dies : Bool) : (s.poll dies).log = s.log := by
  cases dies <;> rfl

/-- Polling may find that the child has exited. -/
theorem poll_child (dies : Bool) :
    (s.poll dies).child = s.child ∨ ((s.poll dies).child = none ∧ dies = true) := by
  cases dies with
  | false => exact Or.inl rfl
  | true => exact Or.inr ⟨rfl, rfl⟩

/-- Polling starts no process. -/
theorem poll_child_none (dies : Bool) (h : s.child = none) : (s.poll dies).child = none := by
  cases dies with
  | false => exact h
  | true => rfl

/-- After a stop there is no process. -/
@[simp] theorem stopChild_child : s.stopChild.child = none := by
  unfold stopChild
  cases hchild : s.child with
  | none => exact hchild
  | some c => rfl

/-- A stop leaves the active configuration. -/
@[simp] theorem stopChild_active : s.stopChild.active = s.active := by
  unfold stopChild
  cases s.child <;> rfl

/-- A stop leaves the applied hash. -/
@[simp] theorem stopChild_appliedHash : s.stopChild.appliedHash = s.appliedHash := by
  unfold stopChild
  cases s.child <;> rfl

/-- A stop leaves whether the core should run. -/
@[simp] theorem stopChild_wantsRunning : s.stopChild.wantsRunning = s.wantsRunning := by
  unfold stopChild
  cases s.child <;> rfl

/-- A child may be stopped right after its snapshot, or if its spawn failed. -/
theorem stopChild_counted (h : Counted s.log)
    (hchild : ∀ c, s.child = some c → c.started = true → s.log.head? = some (.snapshot c)) :
    Counted s.stopChild.log := by
  unfold stopChild
  cases hc : s.child with
  | none => exact h
  | some c => exact ⟨hchild c hc, h⟩

/-- What a snapshot leaves behind. -/
theorem collectStats_spec (strict ok : Bool) (s : CoreRuntime κ) :
    (collectStats strict ok s).2.child = s.child ∧
      (collectStats strict ok s).2.active = s.active ∧
      (collectStats strict ok s).2.appliedHash = s.appliedHash ∧
      (collectStats strict ok s).2.wantsRunning = s.wantsRunning ∧
      (Counted s.log → Counted (collectStats strict ok s).2.log) := by
  obtain ⟨child, active, previous, appliedHash, wants, desired, log⟩ := s
  cases child with
  | none => exact ⟨rfl, rfl, rfl, rfl, id⟩
  | some c =>
      cases ok with
      | true => exact ⟨rfl, rfl, rfl, rfl, id⟩
      | false => exact ⟨rfl, rfl, rfl, rfl, id⟩

/-- A strict snapshot that returns is the newest event of a running child. -/
theorem collectStats_strict {ok : Bool} (h : (collectStats true ok s).1 = true) :
    ∀ c, s.child = some c → (collectStats true ok s).2.log.head? = some (.snapshot c) := by
  intro c hc
  unfold collectStats at h ⊢
  rw [hc] at h ⊢
  cases ok with
  | true => rfl
  | false => cases h

/-- What a spawn leaves behind. -/
theorem spawn_spec (outcome : SpawnOutcome) (s : CoreRuntime κ) (hnone : s.child = none)
    (hlog : Counted s.log) :
    (spawn outcome s).2.active = s.active ∧ (spawn outcome s).2.appliedHash = s.appliedHash ∧
      (∀ c, (spawn outcome s).2.child = some c → s.active = some c.config ∧
        ((spawn outcome s).1 = false → c.started = false)) ∧
      Counted (spawn outcome s).2.log := by
  obtain ⟨child, active, previous, appliedHash, wants, desired, log⟩ := s
  have hchild : child = none := hnone
  subst hchild
  cases active with
  | none => exact ⟨rfl, rfl, fun c hc => (by cases hc), hlog⟩
  | some config =>
      cases outcome with
      | refused => exact ⟨rfl, rfl, fun c hc => (by cases hc), hlog⟩
      | exited => exact ⟨rfl, rfl, fun c hc => (by cases hc), hlog⟩
      | notReady => exact ⟨rfl, rfl, fun c hc => (by cases hc), fun h => (by cases h), hlog⟩
      | interrupted =>
          refine ⟨rfl, rfl, fun c hc => ?_, hlog⟩
          cases hc
          exact ⟨rfl, fun _ => rfl⟩
      | ready =>
          refine ⟨rfl, rfl, fun c hc => ?_, hlog⟩
          cases hc
          exact ⟨rfl, fun h => (by cases h)⟩

/-- A spawn of a configuration fails unless the process becomes ready. -/
theorem spawn_fails {outcome : SpawnOutcome} (h : outcome ≠ .ready) : (spawn outcome s).1 = false := by
  unfold spawn
  cases s.active with
  | none => rfl
  | some config => cases outcome <;> first | rfl | exact absurd rfl h

/-- Polling does not disturb the generation. -/
theorem Undisturbed.poll {t : CoreRuntime κ} (h : Undisturbed o s t) (p : Poll) :
    Undisturbed o s (t.poll (o.dies p)) where
  active := (poll_active _).trans h.active
  appliedHash := (poll_appliedHash _).trans h.appliedHash
  child := by
    cases hdies : o.dies p with
    | false => exact h.child
    | true => exact Or.inr ⟨rfl, p, hdies⟩

/-- No change disturbs nothing. -/
theorem Undisturbed.refl (o : Outcomes) (s : CoreRuntime κ) : Undisturbed o s s :=
  ⟨rfl, rfl, Or.inl rfl⟩

/-- Collecting counters disturbs nothing. -/
theorem Undisturbed.collectStats {t : CoreRuntime κ} (h : Undisturbed o s t) (strict ok : Bool) :
    Undisturbed o s (CoreRuntime.collectStats strict ok t).2 := by
  obtain ⟨hchild, hactive, happlied, -, -⟩ := collectStats_spec strict ok t
  exact ⟨hactive.trans h.active, happlied.trans h.appliedHash, hchild.symm ▸ h.child⟩

/-- An undisturbed generation is consistent if its events are. -/
theorem Undisturbed.consistent {t : CoreRuntime κ} (h : Undisturbed o s t)
    (hcurrent : Current hash s) (hlog : Counted t.log) : Consistent hash t := by
  refine ⟨fun c hc => ?_, hlog⟩
  rw [h.active, h.appliedHash]
  rcases h.child with hsame | ⟨hnone, -⟩
  · exact hcurrent c (hsame ▸ hc)
  · rw [hnone] at hc
    cases hc

/-- The state in which the old generation is taken down. -/
def halting (o : Outcomes) (s : CoreRuntime κ) : Bool × CoreRuntime κ :=
  CoreRuntime.collectStats (s.poll (o.dies .before)).running o.snapshot
    ((s.poll (o.dies .before)).poll (o.dies .snapshot))

/-- Halting collects the counters and then stops. -/
theorem halt_eq (o : Outcomes) (s : CoreRuntime κ) :
    halt o s =
      if !(halting o s).1 then (.error .snapshot, (halting o s).2)
      else if (s.poll (o.dies .before)).running then
        (.ok true, stopChild ((halting o s).2.poll (o.dies .stop)))
      else if !o.portFree then (.error .portOccupied, (halting o s).2)
      else (.ok false, (halting o s).2) :=
  rfl

/-- What comes before a halt disturbs nothing. -/
theorem halting_undisturbed (o : Outcomes) (s : CoreRuntime κ) :
    Undisturbed o s (halting o s).2 :=
  (((Undisturbed.refl o s).poll .before).poll .snapshot).collectStats _ _

/-- What comes before a halt leaves whether the core should run. -/
theorem halting_wantsRunning (o : Outcomes) (s : CoreRuntime κ) :
    (halting o s).2.wantsRunning = s.wantsRunning := by
  have hcollect := (collectStats_spec (s.poll (o.dies .before)).running o.snapshot
    ((s.poll (o.dies .before)).poll (o.dies .snapshot))).2.2.2.1
  exact hcollect.trans (by simp)

/-- What comes before a halt keeps the log counted. -/
theorem halting_counted (h : Counted s.log) : Counted (halting o s).2.log := by
  apply (collectStats_spec _ _ _).2.2.2.2
  simpa using h

/-- A child that is still running has just been counted. -/
theorem halting_stopped {t : CoreRuntime κ} (h : Counted s.log) (hok : (halting o s).1 = true)
    (hchild : t.child = (halting o s).2.child ∨ t.child = none)
    (hlog : t.log = (halting o s).2.log) : Counted t.stopChild.log := by
  apply stopChild_counted
  · rw [hlog]
    exact halting_counted h
  · intro c hc _
    rw [hlog]
    rcases hchild with hsame | hnone
    · have hpolled : ((s.poll (o.dies .before)).poll (o.dies .snapshot)).child = some c :=
        (collectStats_spec _ _ _).1.symm.trans (hsame.symm.trans hc)
      have hwas : (s.poll (o.dies .before)).running = true := by
        cases hbefore : (s.poll (o.dies .before)).child with
        | none =>
            rw [poll_child_none _ hbefore] at hpolled
            cases hpolled
        | some c => simp [running, hbefore]
      unfold halting at hok ⊢
      rw [hwas] at hok ⊢
      exact collectStats_strict hok c hpolled
    · rw [hnone] at hc
      cases hc

/-- When the old generation cannot be taken down, it goes on. -/
theorem halt_error {e : ApplyError} {t : CoreRuntime κ} (h : halt o s = (.error e, t))
    (hlog : Counted s.log) :
    (e = .snapshot ∨ e = .portOccupied) ∧ Undisturbed o s t ∧ Counted t.log := by
  rw [halt_eq] at h
  by_cases hok : (halting o s).1 = true
  · rw [hok] at h
    by_cases hwas : (s.poll (o.dies .before)).running = true
    · rw [hwas] at h
      cases h
    · rw [Bool.not_eq_true] at hwas
      rw [hwas] at h
      cases hport : o.portFree with
      | true =>
          rw [hport] at h
          cases h
      | false =>
          rw [hport] at h
          cases h
          exact ⟨Or.inr rfl, halting_undisturbed o s, halting_counted hlog⟩
  · rw [Bool.not_eq_true] at hok
    rw [hok] at h
    cases h
    exact ⟨Or.inl rfl, halting_undisturbed o s, halting_counted hlog⟩

/-- When the old generation is down, its configuration is still the active one. -/
theorem halt_ok {was : Bool} {t : CoreRuntime κ} (h : halt o s = (.ok was, t))
    (hlog : Counted s.log) :
    t.child = none ∧ t.active = s.active ∧ t.appliedHash = s.appliedHash ∧
      t.wantsRunning = s.wantsRunning ∧ was = (s.poll (o.dies .before)).running ∧
      Counted t.log := by
  have hsame := halting_undisturbed o s
  rw [halt_eq] at h
  by_cases hok : (halting o s).1 = true
  · rw [hok] at h
    by_cases hwas : (s.poll (o.dies .before)).running = true
    · have hcounted := halting_stopped hlog hok
        ((poll_child (o.dies .stop)).imp_right And.left) (poll_log _)
      rw [hwas] at h
      cases h
      exact ⟨stopChild_child, by simp [hsame.active], by simp [hsame.appliedHash],
        by simp [halting_wantsRunning], hwas.symm, hcounted⟩
    · rw [Bool.not_eq_true] at hwas
      rw [hwas] at h
      cases hport : o.portFree with
      | false =>
          rw [hport] at h
          cases h
      | true =>
          rw [hport] at h
          cases h
          have hnone : (s.poll (o.dies .before)).child = none := by
            simpa [running] using hwas
          have hchild : (halting o s).2.child = none :=
            (collectStats_spec _ _ _).1.trans (poll_child_none _ hnone)
          exact ⟨hchild, hsame.active, hsame.appliedHash, halting_wantsRunning o s, hwas.symm,
            halting_counted hlog⟩
  · rw [Bool.not_eq_true] at hok
    rw [hok] at h
    cases h

/-- What the rollback leaves behind when it writes the previous configuration. -/
theorem rollBack_spec (was : Bool) {old : Option κ} (oldhash : String)
    (hchild : ∀ c, s.child = some c → c.started = false) (hlog : Counted s.log)
    (hwritten : old = none ∨ o.restored = true) :
    ∃ rollback, (rollBack was old oldhash o s).1 = .spawning rollback ∧
      (∀ c, old = some c → (rollBack was old oldhash o s).2.active = some c) ∧
      ((∃ c, (rollBack was old oldhash o s).2.child = some c ∧ old = some c.config ∧ was = true ∧
          (rollBack was old oldhash o s).2.appliedHash = oldhash) ∨
        ((rollBack was old oldhash o s).2.child = none ∧
          (rollBack was old oldhash o s).2.appliedHash = "")) ∧
      Counted (rollBack was old oldhash o s).2.log := by
  have hstopped : Counted s.stopChild.log := by
    apply stopChild_counted hlog
    intro c hc hstarted
    rw [hchild c hc] at hstarted
    cases hstarted
  have hnone : s.stopChild.running = false := by simp [running]
  unfold rollBack
  cases old with
  | none =>
      refine ⟨.noPrevious, rfl, fun c hc => (by cases hc), Or.inr ⟨stopChild_child, ?_⟩, hstopped⟩
      simp [hnone]
  | some config =>
      have hrestored : o.restored = true := by simpa using hwritten
      cases was with
      | false =>
          simp only [hrestored, Bool.not_true, Bool.false_eq_true, if_false]
          refine ⟨.noPrevious, rfl, fun c hc => (by cases hc; rfl),
            Or.inr ⟨stopChild_child, ?_⟩, hstopped⟩
          exact if_neg (by simp [running])
      | true =>
          simp only [hrestored, Bool.not_true, Bool.false_eq_true, if_false, if_true]
          have hspawn := spawn_spec o.respawn { s.stopChild with active := some config }
            stopChild_child hstopped
          generalize spawn o.respawn { s.stopChild with active := some config } = again at hspawn ⊢
          obtain ⟨hactive, -, hagain, hcounted⟩ := hspawn
          refine ⟨_, rfl, fun c hc => ?_, ?_, by simpa using hcounted⟩
          · cases hc
            simpa using hactive
          · rcases poll_child (o.dies .respawned) (s := again.2) with hsame | ⟨hgone, -⟩
            · cases hc : again.2.child with
              | none =>
                  right
                  simp [running, hsame, hc]
              | some c =>
                  left
                  exact ⟨c, by simp [hsame, hc], (hagain c hc).1, trivial, by simp [running, hsame, hc]⟩
            · right
              simp [running, hgone]

/-- The rollback that cannot write leaves the new configuration and the old hash. -/
theorem rollBack_unwritten {was : Bool} {config : κ} {oldhash : String}
    (h : o.restored = false) :
    rollBack was (some config) oldhash o s = (.restoring, s.stopChild) := by
  unfold rollBack
  simp [h]

/-- The new generation is spawned in this state. -/
def written (config : κ) (old : Option κ) (s : CoreRuntime κ) : CoreRuntime κ :=
  { (if old.isSome then { s with previous := old } else s) with active := some config }

/-- Writing a configuration leaves the process. -/
@[simp] theorem written_child (config : κ) (old : Option κ) :
    (s.written config old).child = s.child := by
  cases old <;> rfl

/-- A configuration that is written is active. -/
@[simp] theorem written_active (config : κ) (old : Option κ) :
    (s.written config old).active = some config :=
  rfl

/-- Writing a configuration leaves the applied hash. -/
@[simp] theorem written_appliedHash (config : κ) (old : Option κ) :
    (s.written config old).appliedHash = s.appliedHash := by
  cases old <;> rfl

/-- Writing a configuration leaves whether the core should run. -/
@[simp] theorem written_wantsRunning (config : κ) (old : Option κ) :
    (s.written config old).wantsRunning = s.wantsRunning := by
  cases old <;> rfl

/-- Writing a configuration leaves the log. -/
@[simp] theorem written_log (config : κ) (old : Option κ) :
    (s.written config old).log = s.log := by
  cases old <;> rfl

/-- The spawn of the new generation, if there is one. -/
def attempt (start was : Bool) (outcome : SpawnOutcome) (s : CoreRuntime κ) :
    Bool × CoreRuntime κ :=
  if start || was || s.wantsRunning then spawn outcome s else (true, s)

/-- The end of a successful {lit}`apply`. -/
def settled (hash : κ → String) (config : κ) (o : Outcomes) (s : CoreRuntime κ) :
    CoreRuntime κ :=
  let s := s.poll (o.dies .spawned)
  let s := { s with appliedHash := if s.running then hash config else "" }
  let s := s.poll (o.dies .final)
  { s with wantsRunning := s.running }

/-- {lit}`activate` by its stages. -/
theorem activate_eq (config : κ) (start was : Bool) (old : Option κ) (oldhash : String) :
    activate hash config start was old oldhash o s =
      if old.isSome && !o.previousWritten then (.error .previousUnwritten, s)
      else if !o.activeWritten then
        (.error .activeUnwritten, if old.isSome then { s with previous := old } else s)
      else if !(attempt start was o.spawn (s.written config old)).1 then
        (.error (rollBack was old oldhash o (attempt start was o.spawn (s.written config old)).2).1,
          (rollBack was old oldhash o (attempt start was o.spawn (s.written config old)).2).2)
      else (.ok (), settled hash config o (attempt start was o.spawn (s.written config old)).2) :=
  rfl

/-- A successful activation leaves a current generation. -/
theorem settled_consistent {config : κ} (hactive : s.active = some config)
    (hchild : ∀ c, s.child = some c → s.active = some c.config) (hlog : Counted s.log) :
    Consistent hash (settled hash config o s) := by
  have hcurrent : Current hash { (s.poll (o.dies .spawned)) with
      appliedHash := if (s.poll (o.dies .spawned)).running then hash config else "" } := by
    intro c hc
    have hpolled : (s.poll (o.dies .spawned)).child = some c := hc
    rcases poll_child (o.dies .spawned) (s := s) with hsame | ⟨hnone, -⟩
    · have hconfig := hchild c (hsame ▸ hpolled)
      have hequal : config = c.config := Option.some.inj (hactive.symm.trans hconfig)
      refine ⟨by simpa using hconfig, ?_⟩
      simp [running, hpolled, hequal]
    · rw [hnone] at hpolled
      cases hpolled
  have hlater := ((Undisturbed.refl o { (s.poll (o.dies .spawned)) with
      appliedHash := if (s.poll (o.dies .spawned)).running then hash config else "" }).poll
        .final).consistent hcurrent (by simpa using hlog)
  exact ⟨hlater.current, hlater.counted⟩

/-- What an attempt to start does. -/
theorem attempt_spec (start was : Bool) (outcome : SpawnOutcome) (hnone : s.child = none)
    (hlog : Counted s.log) :
    (attempt start was outcome s).2.active = s.active ∧
      (∀ c, (attempt start was outcome s).2.child = some c → s.active = some c.config ∧
        ((attempt start was outcome s).1 = false → c.started = false)) ∧
      Counted (attempt start was outcome s).2.log := by
  unfold attempt
  by_cases hstart : (start || was || s.wantsRunning) = true
  · rw [if_pos hstart]
    obtain ⟨hactive, -, hchild, hcounted⟩ := spawn_spec outcome s hnone hlog
    exact ⟨hactive, hchild, hcounted⟩
  · rw [if_neg hstart]
    refine ⟨rfl, fun c hc => ?_, hlog⟩
    rw [hnone] at hc
    cases hc

/-- What an activation leaves behind: either way the state is consistent, and a failed spawn
is rolled back unless the previous configuration cannot be written. -/
theorem activate_spec (config : κ) (start : Bool) {was : Bool} {old : Option κ} {oldhash : String}
    (hnone : s.child = none) (hlog : Counted s.log) (hold : s.active = old)
    (hhash : was = true → ∀ c, old = some c → oldhash = hash c) :
    Consistent hash (activate hash config start was old oldhash o s).2 ∧
      ∀ e, (activate hash config start was old oldhash o s).1 = .error e →
        (e = .previousUnwritten ∨ e = .activeUnwritten) ∨
        (∃ rollback, e = .spawning rollback ∧
          RolledBack hash s (activate hash config start was old oldhash o s).2) ∨
        (e = .restoring ∧ old.isSome = true ∧ o.restored = false) := by
  have hgone : ∀ t : CoreRuntime κ, t.child = none → Current hash t := by
    intro t ht c hc
    rw [ht] at hc
    cases hc
  rw [activate_eq]
  by_cases hprevious : (old.isSome && !o.previousWritten) = true
  · rw [if_pos hprevious]
    exact ⟨⟨hgone s hnone, hlog⟩, fun e he => Or.inl (Or.inl (Except.error.inj he).symm)⟩
  rw [if_neg hprevious]
  by_cases hactive : (!o.activeWritten) = true
  · rw [if_pos hactive]
    refine ⟨?_, fun e he => Or.inl (Or.inr (Except.error.inj he).symm)⟩
    cases old with
    | none => exact ⟨hgone s hnone, hlog⟩
    | some c => exact ⟨hgone _ hnone, hlog⟩
  rw [if_neg hactive]
  obtain ⟨hstays, hchild, hcounted⟩ := attempt_spec (s := s.written config old) start was
    o.spawn (by simpa using hnone) (by simpa using hlog)
  cases hattempt : (attempt start was o.spawn (s.written config old)).1 with
  | true =>
      simp only [Bool.not_true, Bool.false_eq_true, if_false]
      refine ⟨settled_consistent hstays (fun c hc => ?_) hcounted, fun e he => by cases he⟩
      rw [hstays]
      exact (hchild c hc).1
  | false =>
      simp only [Bool.not_false, if_true]
      have hunstarted : ∀ c, (attempt start was o.spawn (s.written config old)).2.child = some c →
          c.started = false := fun c hc => (hchild c hc).2 hattempt
      by_cases hwritten : old = none ∨ o.restored = true
      · obtain ⟨rollback, hrollback, hback, hrun, hlog'⟩ :=
          rollBack_spec was oldhash hunstarted hcounted hwritten
        generalize rollBack was old oldhash o (attempt start was o.spawn (s.written config old)).2 =
          undone at hrollback hback hrun hlog' ⊢
        have hrolled : RolledBack hash s undone.2 := by
          refine ⟨fun c hc => hback c (hold.symm.trans hc), ?_⟩
          rcases hrun with ⟨c, hc, hconfig, hwas, happlied⟩ | hdown
          · exact Or.inl ⟨c, hc, hold.trans hconfig, happlied.trans (hhash hwas _ hconfig)⟩
          · exact Or.inr hdown
        have hcurrent : Current hash undone.2 := by
          rcases hrun with ⟨c, hc, hconfig, hwas, happlied⟩ | ⟨hdown, -⟩
          · intro c' hc'
            have hequal : c = c' := Option.some.inj (hc.symm.trans hc')
            subst hequal
            exact ⟨hback _ hconfig, happlied.trans (hhash hwas _ hconfig)⟩
          · exact hgone _ hdown
        refine ⟨⟨hcurrent, hlog'⟩, fun e he => Or.inr (Or.inl ⟨rollback, ?_, hrolled⟩)⟩
        exact (Except.error.inj he).symm.trans hrollback
      · rw [not_or, Bool.not_eq_true] at hwritten
        obtain ⟨c, hc⟩ := Option.ne_none_iff_exists'.mp hwritten.1
        subst hc
        rw [rollBack_unwritten hwritten.2]
        refine ⟨⟨hgone _ stopChild_child, ?_⟩, fun e he => Or.inr (Or.inr ⟨?_, rfl, hwritten.2⟩)⟩
        · apply stopChild_counted hcounted
          intro c' hc' hstarted
          rw [hunstarted c' hc'] at hstarted
          cases hstarted
        · exact (Except.error.inj he).symm

/-! ## Calls -/

/-- The state of {lit}`apply` after the comparison of the hashes. -/
theorem apply_eq {config : κ} (start force : Bool) (hwrites : o.writesEnabled = true)
    (hdesired : s.desired = some config) :
    apply hash start force o s =
      if !force && (s.poll (o.dies .shortcut)).running &&
          hash config = (s.poll (o.dies .shortcut)).appliedHash then
        (.ok (), s.poll (o.dies .shortcut))
      else if !o.validated then (.error .validation, s.poll (o.dies .shortcut))
      else if !o.readable then (.error .unreadable, s.poll (o.dies .shortcut))
      else
        match halt o (s.poll (o.dies .shortcut)) with
        | (.error e, t) => (.error e, t)
        | (.ok was, t) => activate hash config start was (s.poll (o.dies .shortcut)).active
            (s.poll (o.dies .shortcut)).appliedHash o t := by
  unfold apply
  rw [hwrites, hdesired]
  rfl

/-- What {lit}`apply` leaves behind. -/
theorem apply_spec (start force : Bool) (h : Consistent hash s) :
    Consistent hash (apply hash start force o s).2 ∧
      ∀ e, (apply hash start force o s).1 = .error e →
        Atomic hash o s (apply hash start force o s).2 e ∨
          (e = .restoring ∧ s.active.isSome = true ∧ o.restored = false) := by
  have hpolled := (Undisturbed.refl o s).poll .shortcut
  have hconsistent := hpolled.consistent h.current (by simpa using h.counted)
  by_cases hwrites : o.writesEnabled = true
  · cases hdesired : s.desired with
    | none =>
        have happly : apply hash start force o s = (.error .build, s) := by
          unfold apply
          rw [hwrites, hdesired]
          rfl
        rw [happly]
        exact ⟨h, fun e he => Or.inl (Except.error.inj he ▸ trivial)⟩
    | some config =>
        rw [apply_eq start force hwrites hdesired]
        split
        · exact ⟨hconsistent, fun e he => by cases he⟩
        split
        · exact ⟨hconsistent, fun e he => Or.inl (Except.error.inj he ▸ hpolled)⟩
        split
        · exact ⟨hconsistent, fun e he => Or.inl (Except.error.inj he ▸ trivial)⟩
        cases hhalt : halt o (s.poll (o.dies .shortcut)) with
        | mk result t =>
            cases result with
            | error e =>
                obtain ⟨hkind, hsame, hlog⟩ := halt_error hhalt hconsistent.counted
                have hundisturbed : Undisturbed o s t := {
                  active := hsame.active.trans hpolled.active
                  appliedHash := hsame.appliedHash.trans hpolled.appliedHash
                  child := by
                    rcases hsame.child with hc | hc
                    · rw [hc]
                      exact hpolled.child
                    · exact Or.inr hc }
                refine ⟨hsame.consistent hconsistent.current hlog, fun e' he' => Or.inl ?_⟩
                have hequal : e = e' := Except.error.inj he'
                subst hequal
                rcases hkind with rfl | rfl
                · exact hundisturbed
                · trivial
            | ok was =>
                obtain ⟨hnone, hactive, happlied, -, hwas, hlog⟩ :=
                  halt_ok hhalt hconsistent.counted
                have hhash : was = true → ∀ c, (s.poll (o.dies .shortcut)).active = some c →
                    (s.poll (o.dies .shortcut)).appliedHash = hash c := by
                  intro htrue c hc
                  rw [hwas] at htrue
                  obtain ⟨child, hchild⟩ := Option.isSome_iff_exists.mp htrue
                  have hbefore : (s.poll (o.dies .shortcut)).child = some child := by
                    rcases poll_child (o.dies .before) (s := s.poll (o.dies .shortcut)) with
                      hsame | ⟨hgone, -⟩
                    · exact hsame ▸ hchild
                    · rw [hgone] at hchild
                      cases hchild
                  obtain ⟨hconfig, hhash⟩ := hconsistent.current child hbefore
                  rw [hhash, Option.some.inj (hc.symm.trans hconfig)]
                obtain ⟨hafter, herrors⟩ := activate_spec config start hnone hlog hactive hhash
                refine ⟨hafter, fun e he => ?_⟩
                rcases herrors e he with hfiles | ⟨rollback, rfl, hrolled⟩ | ⟨rfl, hold, hlost⟩
                · left
                  rcases hfiles with rfl | rfl <;> trivial
                · left
                  refine ⟨fun old hold => hrolled.active old ?_, ?_⟩
                  · rw [hactive, poll_active]
                    exact hold
                  · have hsame : t.active = s.active := hactive.trans (poll_active _)
                    have hchild := hrolled.child
                    rw [hsame] at hchild
                    exact hchild
                · right
                  rw [poll_active] at hold
                  exact ⟨rfl, hold, hlost⟩
  · rw [Bool.not_eq_true] at hwrites
    have happly : apply hash start force o s = (.error .disabled, s) := by
      unfold apply
      rw [hwrites]
      rfl
    rw [happly]
    exact ⟨h, fun e he => Or.inl (Except.error.inj he ▸ trivial)⟩

/-! ## The rollback that cannot write -/

/-- When a rollback fails to restore. -/
theorem rollBack_restoring_iff {was : Bool} {old : Option κ} {oldhash : String} :
    (rollBack was old oldhash o s).1 = .restoring ↔ old.isSome = true ∧ o.restored = false := by
  unfold rollBack
  cases old with
  | none => simp
  | some config =>
      cases hrestored : o.restored with
      | false => simp
      | true => cases was <;> simp

/-- When an attempt to start fails. -/
theorem attempt_fails_iff (start was : Bool) (outcome : SpawnOutcome) {config : κ}
    (hactive : s.active = some config) :
    (attempt start was outcome s).1 = false ↔
      (start = true ∨ was = true ∨ s.wantsRunning = true) ∧ outcome ≠ .ready := by
  unfold attempt
  by_cases hstart : (start || was || s.wantsRunning) = true
  · rw [if_pos hstart]
    have hgoes : start = true ∨ was = true ∨ s.wantsRunning = true := by
      simpa [or_assoc] using hstart
    by_cases hready : outcome = .ready
    · subst hready
      simp [spawn, hactive]
    · simp [spawn_fails hready, hgoes, hready]
  · rw [if_neg hstart]
    have hstays : ¬ (start = true ∨ was = true ∨ s.wantsRunning = true) := by
      simpa [or_assoc] using hstart
    simp [hstays]

/-- When an activation fails to restore. -/
theorem activate_restoring_iff {config : κ} {start was : Bool} {old : Option κ}
    {oldhash : String} :
    (activate hash config start was old oldhash o s).1 = .error .restoring ↔
      old.isSome = true ∧ o.previousWritten = true ∧ o.activeWritten = true ∧
        (start = true ∨ was = true ∨ s.wantsRunning = true) ∧ o.spawn ≠ .ready ∧
        o.restored = false := by
  have hattempt := attempt_fails_iff start was o.spawn (written_active (s := s) config old)
  rw [written_wantsRunning] at hattempt
  rw [activate_eq]
  by_cases hprevious : (old.isSome && !o.previousWritten) = true
  · rw [if_pos hprevious]
    simp only [Bool.and_eq_true, Bool.not_eq_true'] at hprevious
    simp [hprevious.2]
  rw [if_neg hprevious]
  by_cases hactive : (!o.activeWritten) = true
  · rw [if_pos hactive]
    simp only [Bool.not_eq_true'] at hactive
    simp [hactive]
  rw [if_neg hactive]
  simp only [Bool.not_eq_true', Bool.not_eq_false] at hactive
  cases hresult : (attempt start was o.spawn (s.written config old)).1 with
  | true =>
      have hgoes : ¬ ((start = true ∨ was = true ∨ s.wantsRunning = true) ∧ o.spawn ≠ .ready) := by
        rw [← hattempt, hresult]
        simp
      simp only [Bool.not_true, Bool.false_eq_true, if_false, reduceCtorEq, false_iff]
      rintro ⟨-, -, -, hstart, hready, -⟩
      exact hgoes ⟨hstart, hready⟩
  | false =>
      obtain ⟨hstart, hready⟩ := hattempt.mp hresult
      simp only [Bool.not_false, if_true, Except.error.injEq, rollBack_restoring_iff]
      constructor
      · rintro ⟨hold, hlost⟩
        have hwritten : o.previousWritten = true := by simpa [hold] using hprevious
        exact ⟨hold, hwritten, hactive, hstart, hready, hlost⟩
      · rintro ⟨hold, -, -, -, -, hlost⟩
        exact ⟨hold, hlost⟩

/-- The new configuration and the old hash stay, without a child. -/
theorem activate_restoring {config : κ} {start was : Bool} {old : Option κ} {oldhash : String}
    (hnone : s.child = none) (hlog : Counted s.log)
    (h : (activate hash config start was old oldhash o s).1 = .error .restoring) :
    (activate hash config start was old oldhash o s).2.active = some config ∧
      (activate hash config start was old oldhash o s).2.appliedHash = s.appliedHash ∧
      (activate hash config start was old oldhash o s).2.child = none := by
  obtain ⟨hold, hprevious, hactive, hstart, hready, hlost⟩ := activate_restoring_iff.mp h
  obtain ⟨c, rfl⟩ := Option.isSome_iff_exists.mp hold
  have hattempt : attempt start was o.spawn (s.written config (some c)) =
      spawn o.spawn (s.written config (some c)) := by
    unfold attempt
    apply if_pos
    simpa [or_assoc] using hstart
  obtain ⟨hstays, happlied, -, -⟩ := spawn_spec o.spawn (s.written config (some c))
    (by simpa using hnone) (by simpa using hlog)
  rw [activate_eq, hattempt, spawn_fails hready, rollBack_unwritten hlost, hprevious, hactive]
  simp [hstays, happlied]

/-- When a halt succeeds. -/
theorem halt_ok_iff :
    (∃ was t, halt o s = (.ok was, t)) ↔
      (o.snapshot = true ∨ ((s.poll (o.dies .before)).poll (o.dies .snapshot)).running = false) ∧
        ((s.poll (o.dies .before)).running = true ∨ o.portFree = true) := by
  have hok : (halting o s).1 = true ↔ o.snapshot = true ∨
      ((s.poll (o.dies .before)).poll (o.dies .snapshot)).running = false := by
    unfold halting collectStats running
    cases hchild : ((s.poll (o.dies .before)).poll (o.dies .snapshot)).child with
    | none => simp
    | some c =>
        have hbefore : (s.poll (o.dies .before)).child.isSome = true := by
          cases hc : (s.poll (o.dies .before)).child with
          | none =>
              rw [poll_child_none _ hc] at hchild
              cases hchild
          | some c => rfl
        cases o.snapshot <;> simp [hbefore]
  rw [← hok, halt_eq]
  cases (halting o s).1 <;> cases (s.poll (o.dies .before)).running <;> cases o.portFree <;> simp

/-- {lit}`apply` comes to a rollback that cannot write exactly when its steps say so. -/
theorem apply_restoring_iff (start force : Bool) (hlog : Counted s.log) :
    (apply hash start force o s).1 = .error .restoring ↔ WriteLost hash start force o s := by
  by_cases hwrites : o.writesEnabled = true
  · cases hdesired : s.desired with
    | none =>
        unfold apply
        rw [hwrites, hdesired]
        simp only [Bool.not_true, Bool.false_eq_true, if_false, Except.error.injEq, reduceCtorEq,
          false_iff]
        intro h
        obtain ⟨config, hconfig, -⟩ := h.built
        rw [hdesired] at hconfig
        cases hconfig
    | some config =>
        rw [apply_eq start force hwrites hdesired]
        split
        · rename_i hsame
          simp only [reduceCtorEq, false_iff]
          intro h
          obtain ⟨config', hconfig, hchanged⟩ := h.built
          have hequal : config = config' := Option.some.inj (hdesired.symm.trans hconfig)
          subst hequal
          simp only [Bool.and_eq_true, Bool.not_eq_true', decide_eq_true_eq,
            poll_appliedHash] at hsame
          exact hchanged ⟨hsame.1.1, hsame.1.2, hsame.2⟩
        rename_i hchanged
        simp only [Bool.and_eq_true, Bool.not_eq_true', decide_eq_true_eq,
          poll_appliedHash, and_assoc] at hchanged
        split
        · rename_i hvalid
          simp only [Except.error.injEq, reduceCtorEq, false_iff]
          intro h
          simp [h.validated] at hvalid
        rename_i hvalid
        split
        · rename_i hread
          simp only [Except.error.injEq, reduceCtorEq, false_iff]
          intro h
          simp [h.readable] at hread
        rename_i hread
        simp only [Bool.not_eq_true', Bool.not_eq_false] at hvalid hread
        have hok := halt_ok_iff (o := o) (s := s.poll (o.dies .shortcut))
        cases hhalt : halt o (s.poll (o.dies .shortcut)) with
        | mk result t =>
            cases result with
            | error e =>
                simp only [Except.error.injEq]
                have hkind := (halt_error hhalt (by simpa using hlog)).1
                constructor
                · rintro rfl
                  simp at hkind
                · intro h
                  obtain ⟨was, t', hhalt'⟩ := hok.mpr ⟨h.snapshot, h.port⟩
                  rw [hhalt] at hhalt'
                  cases hhalt'
            | ok was =>
                obtain ⟨hsnapshot, hport⟩ := hok.mp ⟨was, t, hhalt⟩
                obtain ⟨-, -, -, hwants, hwas, -⟩ := halt_ok hhalt (by simpa using hlog)
                rw [poll_wantsRunning] at hwants
                simp only [activate_restoring_iff, poll_active, hwants, hwas]
                constructor
                · rintro ⟨hold, hprevious, hactive, hstart, hready, hlost⟩
                  exact ⟨hwrites, ⟨config, hdesired, hchanged⟩, hvalid, hread, hsnapshot, hport,
                    hold, hprevious, hactive, hstart, hready, hlost⟩
                · intro h
                  exact ⟨h.previous, h.previousWritten, h.activeWritten, h.attempted, h.fails,
                    h.unwritten⟩
  · unfold apply
    rw [Bool.not_eq_true] at hwrites
    rw [hwrites]
    simp only [Bool.not_false, if_true, Except.error.injEq, reduceCtorEq, false_iff]
    intro h
    simp [h.writesEnabled] at hwrites

/-- A rollback that cannot write leaves the new configuration and the old hash behind. -/
theorem rollback_unwritten {start force : Bool} (hlog : Counted s.log)
    (h : WriteLost hash start force o s) :
    (apply hash start force o s).2.active = s.desired ∧
      (apply hash start force o s).2.appliedHash = s.appliedHash ∧
      (apply hash start force o s).2.child = none := by
  have hrestoring := (apply_restoring_iff start force hlog).mpr h
  obtain ⟨config, hdesired, hchanged⟩ := h.built
  have hguard : ¬ (!force && (s.poll (o.dies .shortcut)).running &&
      decide (hash config = (s.poll (o.dies .shortcut)).appliedHash)) = true := by
    simpa [and_assoc] using hchanged
  rw [apply_eq start force h.writesEnabled hdesired, if_neg hguard, h.validated, h.readable]
    at hrestoring ⊢
  obtain ⟨was, t, hhalt⟩ := halt_ok_iff.mpr ⟨h.snapshot, h.port⟩
  obtain ⟨hnone, -, happlied, -, -, hcounted⟩ := halt_ok hhalt (by simpa using hlog)
  rw [poll_appliedHash] at happlied
  simp only [hhalt, Bool.not_true, Bool.false_eq_true, if_false] at hrestoring ⊢
  rw [hdesired, ← happlied]
  exact activate_restoring hnone hcounted hrestoring

/-- What a failed {lit}`apply` leaves behind is atomic, unless its rollback cannot write. -/
theorem apply_atomic_iff (start force : Bool) (h : Consistent hash s) :
    (∀ e, (apply hash start force o s).1 = .error e →
        Atomic hash o s (apply hash start force o s).2 e) ↔
      ¬ Unrestored hash start force o s := by
  constructor
  · rintro hatomic ⟨hlost, hdiffer⟩
    have hrolled : RolledBack hash s (apply hash start force o s).2 :=
      hatomic .restoring ((apply_restoring_iff start force h.counted).mpr hlost)
    obtain ⟨hactive, happlied, hnone⟩ := rollback_unwritten h.counted hlost
    obtain ⟨old, hold⟩ := Option.isSome_iff_exists.mp hlost.previous
    rcases hdiffer with hconfig | hhash
    · apply hconfig
      rw [← hactive, hrolled.active old hold, hold]
    · rcases hrolled.child with ⟨c, hc, -⟩ | ⟨-, hempty⟩
      · rw [hnone] at hc
        cases hc
      · exact hhash (happlied.symm.trans hempty)
  · intro hsafe e he
    rcases (apply_spec start force h).2 e he with hatomic | ⟨rfl, -, -⟩
    · exact hatomic
    · have hlost := (apply_restoring_iff start force h.counted).mp he
      obtain ⟨hactive, happlied, hnone⟩ := rollback_unwritten h.counted hlost
      have hsame : s.desired = s.active ∧ s.appliedHash = "" := by
        by_contra hdiffer
        apply hsafe
        refine ⟨hlost, ?_⟩
        rwa [not_and_or] at hdiffer
      have hrolled : RolledBack hash s (apply hash start force o s).2 := by
        refine ⟨fun old hold => ?_, Or.inr ⟨hnone, happlied.trans hsame.2⟩⟩
        rw [hactive, hsame.1, hold]
      exact hrolled

/-- {lit}`command('stop')` stops a child only after its snapshot. -/
theorem stop_spec (h : Consistent hash s) :
    Consistent hash (stop o s).2 ∧
      ∀ e, (stop o s).1 = .error e → Atomic hash o s (stop o s).2 e := by
  have hgone : ∀ t : CoreRuntime κ, t.child = none → Current hash t := by
    intro t ht c hc
    rw [ht] at hc
    cases hc
  have hstop : stop o s =
      if !o.writesEnabled then (.error .disabled, s)
      else if !(halting o s).1 then (.error .snapshot, (halting o s).2)
      else (.ok (), { (stopChild ({ (halting o s).2 with wantsRunning := false }.poll
        (o.dies .stop))) with appliedHash := "" }) := rfl
  rw [hstop]
  cases hwrites : o.writesEnabled with
  | false => exact ⟨h, fun e he => Except.error.inj he ▸ trivial⟩
  | true =>
      simp only [Bool.not_true, Bool.false_eq_true, if_false]
      cases hok : (halting o s).1 with
      | false =>
          have hsame := halting_undisturbed o s
          simp only [Bool.not_false, if_true]
          exact ⟨hsame.consistent h.current (halting_counted h.counted),
            fun e he => Except.error.inj he ▸ hsame⟩
      | true =>
          simp only [Bool.not_true, Bool.false_eq_true, if_false]
          refine ⟨⟨hgone _ stopChild_child, ?_⟩, fun e he => by cases he⟩
          exact halting_stopped h.counted hok
            ((poll_child (o.dies .stop)).imp_right And.left) (poll_log _)

/-- A validation changes nothing. -/
theorem validate_spec :
    (validate o s).2 = s ∧ ∀ e, (validate o s).1 = .error e → Atomic hash o s s e := by
  unfold validate
  split
  · exact ⟨rfl, fun e he => Except.error.inj he ▸ trivial⟩
  split
  · exact ⟨rfl, fun e he => Except.error.inj he ▸ trivial⟩
  split
  · exact ⟨rfl, fun e he => Except.error.inj he ▸ Undisturbed.refl o s⟩
  · exact ⟨rfl, fun e he => by cases he⟩

end Operations

/-! ## Runs -/

section Runs

variable {hash : κ → String}

/-- Every call is an {lit}`apply`, or it does not spawn. -/
theorem perform_cases (s : CoreRuntime κ) (call : CoreCall κ) :
    (∃ start force o, applies s call = some (start, force, o) ∧ outcomes call = some o ∧
      perform hash s call = apply hash start force o s) ∨ applies s call = none := by
  cases call with
  | apply start force o => exact Or.inl ⟨start, force, o, rfl, rfl, rfl⟩
  | command action o =>
      cases action with
      | restart => exact Or.inl ⟨true, true, o, rfl, rfl, rfl⟩
      | start => exact Or.inl ⟨true, false, o, rfl, rfl, rfl⟩
      | apply => exact Or.inl ⟨true, false, o, rfl, rfl, rfl⟩
      | validate => exact Or.inr rfl
      | stop => exact Or.inr rfl
  | flush recent o =>
      by_cases hskip : (!s.wantsRunning || !s.running && recent) = true
      · exact Or.inr (if_pos hskip)
      · exact Or.inl ⟨true, false, o, if_neg hskip, rfl, if_neg hskip⟩
  | crash => exact Or.inr rfl
  | edit desired => exact Or.inr rfl

/-- A call without a spawn leaves a consistent state, and every exception is atomic. -/
theorem perform_quiet {s : CoreRuntime κ} {call : CoreCall κ} (h : Consistent hash s)
    (hquiet : applies s call = none) :
    Consistent hash (perform hash s call).2 ∧ AtomicCall hash s call := by
  cases call with
  | apply start force o => cases hquiet
  | command action o =>
      cases action with
      | validate =>
          have hspec : (validate o s).2 = s ∧
              ∀ e, (validate o s).1 = .error e → Atomic hash o s s e := validate_spec
          obtain ⟨hsame, hatomic⟩ := hspec
          have hperform : perform hash s (.command .validate o) = validate o s := rfl
          unfold AtomicCall
          rw [hperform, hsame]
          refine ⟨h, fun e o' he ho => ?_⟩
          cases ho
          exact hatomic e he
      | stop =>
          obtain ⟨hafter, hatomic⟩ := stop_spec (o := o) h
          refine ⟨hafter, fun e o' he ho => ?_⟩
          cases ho
          exact hatomic e he
      | restart => cases hquiet
      | start => cases hquiet
      | apply => cases hquiet
  | flush recent o =>
      by_cases hskip : (!s.wantsRunning || !s.running && recent) = true
      · have hperform : perform hash s (.flush recent o) = (.ok (), s) := if_pos hskip
        unfold AtomicCall
        rw [hperform]
        exact ⟨h, fun e o' he => by cases he⟩
      · rw [applies, if_neg hskip] at hquiet
        cases hquiet
  | crash => exact ⟨⟨fun c hc => (by cases hc), h.counted⟩, fun e o he => by cases he⟩
  | edit desired => exact ⟨⟨h.current, h.counted⟩, fun e o he => by cases he⟩

/-- Every call keeps the state consistent. -/
theorem perform_consistent {s : CoreRuntime κ} (call : CoreCall κ) (h : Consistent hash s) :
    Consistent hash (perform hash s call).2 := by
  rcases perform_cases s call with ⟨start, force, o, -, -, hperform⟩ | hquiet
  · rw [hperform]
    exact (apply_spec start force h).1
  · exact (perform_quiet h hquiet).1

/-- A call is atomic exactly if it does not come to a rollback that cannot write. -/
theorem atomic_iff {s : CoreRuntime κ} (call : CoreCall κ) (h : Consistent hash s) :
    AtomicCall hash s call ↔ ¬ Unwritable hash s call := by
  rcases perform_cases s call with ⟨start, force, o, happlies, houtcomes, hperform⟩ | hquiet
  · have hatomic := apply_atomic_iff (o := o) start force h
    unfold AtomicCall Unwritable
    rw [hperform]
    simp only [houtcomes, happlies, Option.some.injEq, Prod.mk.injEq]
    constructor
    · rintro hcall ⟨start', force', o', ⟨rfl, rfl, rfl⟩, hlost⟩
      exact hatomic.mp (fun e he => hcall e o he rfl) hlost
    · rintro hsafe e o' he rfl
      exact hatomic.mpr (fun hlost => hsafe ⟨start, force, o, ⟨rfl, rfl, rfl⟩, hlost⟩) e he
  · have hnever : ¬ Unwritable hash s call := by
      rintro ⟨start, force, o, happlies, -⟩
      rw [hquiet] at happlies
      cases happlies
    exact iff_of_true (perform_quiet h hquiet).2 hnever

end Runs

/-- The core before its first call: nothing runs, and nothing was applied. -/
def initial (active previous desired : Option κ) (wantsRunning : Bool) : CoreRuntime κ where
  child := none
  active := active
  previous := previous
  appliedHash := ""
  wantsRunning := wantsRunning
  desired := desired
  log := []

/-- The core begins consistent. -/
theorem initial_consistent (hash : κ → String) (active previous desired : Option κ)
    (wantsRunning : Bool) : Consistent hash (initial active previous desired wantsRunning) where
  current := fun c hc => by cases hc
  counted := trivial

end CoreRuntime

open CoreRuntime in
/-- The activation of a configuration is atomic: in every state of every run a running child
runs the active configuration, whose hash is the applied one, and has only been stopped right
after a snapshot; and a call in that state leaves behind what its exception allows exactly if
it does not come to a rollback that cannot write. -/
theorem activation_atomic {hash : κ → String} {active previous desired : Option κ}
    {wantsRunning : Bool} {calls : List (CoreCall κ)} {s : CoreRuntime κ}
    (hrun : Run (Step hash) (initial active previous desired wantsRunning) calls s) :
    Current hash s ∧ Counted s.log ∧
      ∀ call, AtomicCall hash s call ↔ ¬ Unwritable hash s call := by
  have hstep : ∀ a call b, Consistent hash a → Step hash a call b → Consistent hash b := by
    rintro a call b ha rfl
    exact perform_consistent call ha
  have hconsistent : Consistent hash s :=
    hrun.invariant (initial_consistent hash active previous desired wantsRunning) hstep
  exact ⟨hconsistent.current, hconsistent.counted, fun call => atomic_iff call hconsistent⟩

/-- Every step succeeds. -/
def smooth : Outcomes where
  writesEnabled := true
  validated := true
  readable := true
  snapshot := true
  portFree := true
  previousWritten := true
  activeWritten := true
  spawn := .ready
  restored := true
  respawn := .ready
  dies := fun _ => false

open CoreRuntime in
/-- A generation that runs, and whose configuration has been edited since. -/
def editedCore : CoreRuntime String :=
  (perform id (perform id (initial none none (some "a") false) (.command .start smooth)).2
    (.edit (some "b"))).2

open CoreRuntime in
/-- The edited core is reached. -/
theorem editedCore_run : Run (Step id) (initial none none (some "a") false)
    [.command .start smooth, .edit (some "b")] editedCore := by
  have hfirst : Run (Step id) (initial none none (some "a") false) [.command .start smooth]
      (perform id (initial none none (some "a") false) (.command .start smooth)).2 :=
    Run.single rfl
  exact hfirst.snoc rfl

open CoreRuntime in
/-- A start that fails leaves the edited core as it was. -/
theorem activation_atomic_edited :
    AtomicCall id editedCore (.command .apply { smooth with spawn := .exited }) := by
  apply ((activation_atomic editedCore_run).2.2 _).mpr
  rintro ⟨start, force, o, happlies, hlost, -⟩
  cases happlies
  exact absurd hlost.unwritten (by decide)

open CoreRuntime in
/-- The new generation exits during startup, and the disk is full when the previous
configuration is written back: nothing runs, the new configuration is active, and the hash is
that of the old one. -/
theorem rollback_lost : Run (Step id) (initial none none (some "a") false)
      [.command .start smooth, .edit (some "b")] editedCore ∧
    ¬ AtomicCall id editedCore
      (.command .apply { smooth with spawn := .exited, restored := false }) := by
  refine ⟨editedCore_run, fun hatomic => ?_⟩
  have hrolled : RolledBack id editedCore (perform id editedCore
      (.command .apply { smooth with spawn := .exited, restored := false })).2 :=
    hatomic .restoring _ rfl rfl
  have hactive : some "b" = some "a" := hrolled.active "a" rfl
  exact absurd hactive (by decide)

end Core
end DarkXray
