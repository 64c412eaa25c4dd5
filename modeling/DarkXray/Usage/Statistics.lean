import Mathlib.Algebra.Order.Group.Int
import Mathlib.Data.Int.Order.Basic
import Mathlib.Data.Nat.Log
import DarkXray.Nodes.Traffic

/-!
# Statistics of the local core

The running core process counts the bytes of every client from zero.
{lit}`collect_stats` asks it for all counters, adds to {lit}`core_clients` what was
added since the last sample of the same process, and remembers the sample in
memory.  A new process starts without remembered samples.

Main results:

- Theorem {lit}`collectStats_sampled`: a call either records a sample or leaves the
  counters and the remembered samples alone.
- Theorem {lit}`get?_addSamples`: what a recorded sample does to one client.
-/

namespace DarkXray
namespace Usage

open Library Policy Nodes

/-! ## Stored counters -/

/-- The double that is nearest to a natural number, ties to even. -/
def nearestDouble (n : ℕ) : ℕ :=
  let unit := 2 ^ (Nat.log 2 n - 52)
  let below := n / unit
  let rest := n % unit
  if 2 * rest < unit ∨ (2 * rest = unit ∧ below % 2 = 0) then below * unit else (below + 1) * unit

/-- The same for an integer. -/
def toDouble (n : ℤ) : ℤ :=
  n.sign * nearestDouble n.natAbs

/-- A value in a column of type {lit}`INTEGER`: SQLite turns a sum that does not fit
into 64 bits into a float.  Floats of that size are integers. -/
inductive Stored where
  | int (n : ℤ)
  | real (n : ℤ)
deriving DecidableEq, Repr

/-- The number that a column holds. -/
def Stored.value : Stored → ℤ
  | .int n => n
  | .real n => n

/-- Store a float; the column turns it back into an integer where that fits. -/
def Stored.ofDouble (n : ℤ) : Stored :=
  if -maxInt ≤ n ∧ n < maxInt then .int n else .real n

/-- {lit}`up=up+?`. -/
def Stored.add (v : Stored) (d : ℤ) : Stored :=
  match v with
  | .int n =>
      if -maxInt - 1 ≤ n + d ∧ n + d ≤ maxInt then .int (n + d)
      else .ofDouble (toDouble (toDouble n + toDouble d))
  | .real x => .ofDouble (toDouble (x + toDouble d))

/-- A sum that fits is exact. -/
theorem Stored.add_int {n d : ℤ} (hlow : 0 ≤ n + d) (hhigh : n + d ≤ maxInt) :
    (Stored.int n).add d = .int (n + d) := by
  have hfits : -maxInt - 1 ≤ n + d ∧ n + d ≤ maxInt := by
    constructor
    · simp only [maxInt]
      omega
    · exact hhigh
  simp only [Stored.add]
  rw [if_pos hfits]

/-- The counters of a row of {lit}`core_clients`. -/
structure Counters where
  up : Stored
  down : Stored
deriving DecidableEq, Repr

/-! ## Answers of the core -/

/-- What interrupts reading an answer: an exception that {lit}`collect_stats`
handles ({lit}`ValueError`, {lit}`OSError`, {lit}`SubprocessError`,
{lit}`CoreError`) with its text, or any other one. -/
inductive Fault where
  | handled (message : String)
  | escaped (failure : Failure)
deriving DecidableEq, Repr

/-- An entry of the statistics; {lit}`value` is what {lit}`int(item.get('value',0))`
gives. -/
inductive StatItem where
  | malformed (fault : Fault)
  | item (name : String) (value : Except Fault ℤ)

/-- The outcome of {lit}`statsquery`: it cannot be run or its output is no JSON, it
fails, its {lit}`stat` is no list, or it lists the counters. -/
inductive Query where
  | raised (fault : Fault)
  | exitCode
  | noList
  | answer (stat : List StatItem)

/-- The two directions of a counter. -/
inductive Direction where
  | uplink
  | downlink
deriving DecidableEq, Repr

/-- Set the counter of a direction. -/
def Direction.set (d : Direction) (n : ℤ) (pair : ℤ × ℤ) : ℤ × ℤ :=
  match d with
  | .uplink => (n, pair.2)
  | .downlink => (pair.1, n)

/-- The text between two fixed ones, {lit}`before(.+)after`. -/
def between (before after name : String) : Option String :=
  let middle := (name.toList.drop before.length).take
    (name.length - before.length - after.length)
  if before.toList.isPrefixOf name.toList ∧ after.toList.isSuffixOf name.toList ∧
      before.length + after.length < name.length ∧ '\n' ∉ middle then
    some (String.ofList middle)
  else none

/-- {lit}`re.fullmatch(r'user>>>(.+)>>>traffic>>>(uplink|downlink)',name)`. -/
def statName (name : String) : Option (String × Direction) :=
  match between "user>>>" ">>>traffic>>>uplink" name with
  | some email => some (email, .uplink)
  | none =>
      match between "user>>>" ">>>traffic>>>downlink" name with
      | some email => some (email, .downlink)
      | none => none

/-- One round of the loop over the entries. -/
def readItem (samples : Table String (ℤ × ℤ)) : StatItem → Except Fault (Table String (ℤ × ℤ))
  | .malformed fault => .error fault
  | .item name value =>
      match statName name with
      | none => .ok samples
      | some (email, direction) => do
          let n ← value
          ensure (0 ≤ n ∧ n ≤ maxInt) (.handled "Invalid core statistic")
          return samples.upsert email (direction.set n (0, 0)) (direction.set n)

/-- The samples that an outcome of the query contains. -/
def Query.samples : Query → Except Fault (Table String (ℤ × ℤ))
  | .raised fault => .error fault
  | .exitCode => .error (.handled "Xray statistics query failed")
  | .noList => .error (.handled "Unexpected stats response")
  | .answer stat => stat.foldlM readItem .empty

/-! ## The engine -/

/-- What the engine keeps: its switch for writes, whether its child process runs, the
counters in {lit}`core_clients`, and in memory the remembered samples with the time
of the last one, in nanoseconds. -/
structure Engine where
  writesEnabled : Bool
  running : Bool
  core : Table String Counters
  lastSamples : Table String (ℤ × ℤ)
  lastStats : ℤ
  statsError : String

/-- {lit}`UPDATE core_clients SET up=up+?,down=down+?` for one sample. -/
def addSample (last : Table String (ℤ × ℤ)) (core : Table String Counters)
    (x : String × ℤ × ℤ) : Table String Counters :=
  let old := (last.get? x.1).getD (0, 0)
  core.update x.1 fun c =>
    { up := c.up.add (counterDelta x.2.1 old.1), down := c.down.add (counterDelta x.2.2 old.2) }

/-- The loop over the samples. -/
def addSamples (last samples : Table String (ℤ × ℤ)) (core : Table String Counters) :
    Table String Counters :=
  samples.rows.foldl (addSample last) core

/-- {lit}`last_samples.update`. -/
def remember (samples last : Table String (ℤ × ℤ)) : Table String (ℤ × ℤ) :=
  samples.rows.foldl (fun t x => t.upsert x.1 x.2 fun _ => x.2) last

/-- The engine after the transaction for a sample. -/
def Engine.counted (n : Engine) (samples : Table String (ℤ × ℤ)) : Engine :=
  { n with core := addSamples n.lastSamples samples n.core }

/-- The engine after a sample was recorded. -/
def Engine.recorded (n : Engine) (now : ℤ) (samples : Table String (ℤ × ℤ)) : Engine :=
  { n.counted samples with
    lastSamples := remember samples n.lastSamples
    lastStats := now
    statsError := "" }

/-- Record a sample; {lit}`commits` says whether its transaction commits. -/
def recordSamples (now : ℤ) (samples : Table String (ℤ × ℤ)) (commits : Bool) :
    Tx Engine Failure Unit := do
  Tx.transaction do
    Tx.write fun n => n.counted samples
    Tx.require (commits = true) .databaseError
  Tx.write fun n => { n with
    lastSamples := remember samples n.lastSamples
    lastStats := now
    statsError := "" }

/-- What happens when reading an answer was interrupted. -/
def sampleFault (strict : Bool) : Fault → Tx Engine Failure Unit
  | .escaped failure => Tx.raise failure
  | .handled message => do
      let text := String.ofList (message.toList.take 500)
      Tx.write fun n => { n with statsError := text }
      Tx.require (strict = false)
        (.coreError ("Cannot safely snapshot traffic before stopping/resetting: " ++ text))

/-- One second between two samples that nobody forces. -/
def samplePeriod : ℤ :=
  1000000000

/-- A sample is due. -/
def Engine.due (n : Engine) (force : Bool) (now : ℤ) : Bool :=
  n.running && (force || samplePeriod ≤ now - n.lastStats)

/-- {lit}`collect_stats`. -/
def collectStats (force strict : Bool) (now : ℤ) (query : Query) (commits : Bool) :
    Tx Engine Failure Unit := do
  let due ← Tx.read fun n => n.due force now
  Tx.when (due = true)
    (match query.samples with
    | .ok samples => recordSamples now samples commits
    | .error fault => sampleFault strict fault)

/-- How the start of a process ends. -/
inductive Startup where
  /-- The guard refuses it. -/
  | refused
  /-- The process exits at once. -/
  | exited
  /-- Its control port does not answer in time. -/
  | unready
  | ready
deriving DecidableEq, Repr

/-- {lit}`_spawn`: a new process counts from zero, so the remembered samples go. -/
def spawn (startup : Startup) : Tx Engine Failure Unit := do
  Tx.require (startup ≠ .refused)
    (.coreError "Node is waiting for a valid Hub accounting lease")
  Tx.write fun n => { n with
    lastSamples := .empty, lastStats := 0, running := decide (startup = .ready) }
  Tx.require (startup ≠ .exited)
    (.coreError "Xray exited during startup; inspect the local process log")
  Tx.require (startup ≠ .unready) (.coreError "Xray API did not become ready")

/-- {lit}`_write`. -/
def demandWrites : Tx Engine Failure Unit := do
  let enabled ← Tx.read Engine.writesEnabled
  Tx.require (enabled = true) (.coreError "Local writes disabled")

/-- The sample that must succeed before the core is stopped or a counter zeroed. -/
def sampleFirst (now : ℤ) (query : Query) (commits : Bool) : Tx Engine Failure Unit := do
  demandWrites
  let running ← Tx.read Engine.running
  collectStats true running now query commits

/-- {lit}`command('stop')`: a last sample, and only then the end of the process. -/
def stop (now : ℤ) (query : Query) (commits : Bool) : Tx Engine Failure Unit := do
  sampleFirst now query commits
  Tx.write fun n => { n with running := false }

/-- {lit}`CoreEngine.reset`: a last sample, then the counters are read and zeroed in
one transaction; {lit}`zeroes` says whether that one commits.  The remembered samples
stay. -/
def reset (email : String) (now : ℤ) (query : Query) (commits zeroes : Bool) :
    Tx Engine Failure (Option Counters) := do
  sampleFirst now query commits
  Tx.transaction do
    let final ← Tx.read fun n => n.core.get? email
    Tx.write fun n => { n with core := n.core.update email fun _ => ⟨.int 0, .int 0⟩ }
    Tx.require (zeroes = true) .databaseError
    return final

/-! ## What a sample does -/

section Samples

variable {n m : Engine} {force strict commits zeroes : Bool} {now : ℤ} {query : Query} {e : String}
  {last samples : Table String (ℤ × ℤ)} {core : Table String Counters}

/-- What a sample shows of a client; a client that has moved no bytes may be absent. -/
def shown (samples : Table String (ℤ × ℤ)) (e : String) : ℤ × ℤ :=
  (samples.get? e).getD (0, 0)

/-- The counters after a sample was added to them. -/
def Counters.after (c : Counters) (old new : ℤ × ℤ) : Counters where
  up := c.up.add (counterDelta new.1 old.1)
  down := c.down.add (counterDelta new.2 old.2)

/-- A recorded sample adds its difference to the counters of every client in it. -/
theorem get?_addSamples :
    (addSamples last samples core).get? e =
      match samples.get? e with
      | some new => (core.get? e).map fun c => c.after (shown last e) new
      | none => core.get? e := by
  have hother : ∀ (t : Table String Counters) (x : String × ℤ × ℤ) (k : String), k ≠ x.1 →
      (addSample last t x).get? k = t.get? k := by
    intro t x k hk
    rw [addSample, Table.get?_update, if_neg hk]
  cases hnew : samples.get? e with
  | none =>
      exact Table.get?_foldl_of_not_mem hother (Table.get?_eq_none_iff.mp hnew) core
  | some new =>
      have hself : ∀ (t : Table String Counters) (x : String × ℤ × ℤ),
          (addSample last t x).get? x.1 =
            (t.get? x.1).map fun c => c.after (shown last x.1) x.2 := by
        intro t x
        rw [addSample, Table.get?_update, if_pos rfl]
        rfl
      exact Table.get?_foldl_of_mem (f := fun k b o => o.map fun c => c.after (shown last k) b)
        hother hself samples.nodupKeys (Table.get?_eq_some_iff.mp hnew) core

/-- The remembered sample of a client is the newest one that shows it. -/
theorem shown_remember :
    shown (remember samples last) e = (samples.get? e).getD (shown last e) := by
  have hother : ∀ (t : Table String (ℤ × ℤ)) (x : String × ℤ × ℤ) (k : String), k ≠ x.1 →
      (t.upsert x.1 x.2 fun _ => x.2).get? k = t.get? k := by
    intro t x k hk
    rw [Table.get?_upsert, if_neg hk]
  have hself : ∀ (t : Table String (ℤ × ℤ)) (x : String × ℤ × ℤ),
      (t.upsert x.1 x.2 fun _ => x.2).get? x.1 = some x.2 := by
    intro t x
    rw [Table.get?_upsert, if_pos rfl]
    cases t.get? x.1 <;> rfl
  unfold shown remember
  cases hnew : samples.get? e with
  | none => rw [Table.get?_foldl_of_not_mem hother (Table.get?_eq_none_iff.mp hnew)]; rfl
  | some new =>
      rw [Table.get?_foldl_of_mem (f := fun _ b _ => some b) hother hself samples.nodupKeys
        (Table.get?_eq_some_iff.mp hnew)]
      rfl

/-! ## What a call does -/

/-- The sample that a call records, if it records one. -/
def Engine.accepted (n : Engine) (force : Bool) (now : ℤ) (query : Query) (commits : Bool) :
    Option (Table String (ℤ × ℤ)) :=
  if n.due force now = true ∧ commits = true then query.samples.toOption else none

/-- The engine after a call that recorded a sample, or none and left a text. -/
inductive Sampled (n : Engine) (now : ℤ) : Option (Table String (ℤ × ℤ)) → Engine → Prop
  | recorded (samples : Table String (ℤ × ℤ)) : Sampled n now (some samples) (n.recorded now samples)
  | quiet (text : String) : Sampled n now none { n with statsError := text }

theorem recordSamples_apply :
    recordSamples now samples commits n =
      if commits = true then (.ok (), n.recorded now samples) else (.error .databaseError, n) := by
  cases commits <;> rfl

theorem sampleFault_quiet (n : Engine) (strict : Bool) (fault : Fault) :
    ∃ text, (sampleFault strict fault n).2 = { n with statsError := text } := by
  cases fault with
  | escaped failure => exact ⟨n.statsError, rfl⟩
  | handled message =>
      refine ⟨String.ofList (message.toList.take 500), ?_⟩
      cases strict <;> rfl

/-- A call records the sample that it accepts, and otherwise leaves the counters and
the remembered samples alone, whether it raises or not. -/
theorem collectStats_sampled :
    Sampled n now (n.accepted force now query commits)
      (collectStats force strict now query commits n).2 := by
  unfold collectStats
  rw [Tx.read_bind]
  cases hdue : n.due force now with
  | false =>
      simp only [Engine.accepted, hdue, Bool.false_eq_true, false_and, if_false, Tx.when]
      exact .quiet n.statsError
  | true =>
      simp only [Engine.accepted, hdue, Tx.when, true_and, if_true]
      cases hsamples : query.samples with
      | error fault =>
          obtain ⟨text, htext⟩ := sampleFault_quiet n strict fault
          simp only [Except.toOption, ite_self]
          rw [htext]
          exact .quiet text
      | ok samples =>
          simp only [recordSamples_apply, Except.toOption]
          cases commits with
          | true => exact .recorded samples
          | false => exact .quiet n.statsError

/-- The sample that stopping or resetting records first. -/
def Engine.acceptedFirst (n : Engine) (now : ℤ) (query : Query) (commits : Bool) :
    Option (Table String (ℤ × ℤ)) :=
  if n.writesEnabled = true then n.accepted true now query commits else none

theorem sampleFirst_sampled :
    Sampled n now (n.acceptedFirst now query commits) (sampleFirst now query commits n).2 := by
  unfold Engine.acceptedFirst
  cases hwrites : n.writesEnabled with
  | true =>
      have hfirst : sampleFirst now query commits n =
          collectStats true n.running now query commits n := by
        simp [sampleFirst, demandWrites, Tx.bind_apply, Tx.read, Tx.require, hwrites,
          Tx.pure_apply]
      rw [hfirst, if_pos rfl]
      exact collectStats_sampled
  | false =>
      have hfirst : (sampleFirst now query commits n).2 = n := by
        simp [sampleFirst, demandWrites, Tx.bind_apply, Tx.read, Tx.require, hwrites, Tx.raise]
      rw [hfirst, if_neg Bool.false_ne_true]
      exact .quiet n.statsError

/-- Stopping takes a last sample, and ends the process only when that returned. -/
theorem stop_sampled :
    ∃ p, Sampled n now (n.acceptedFirst now query commits) p ∧
      ((stop now query commits n).2 = p ∨
        (stop now query commits n).2 = { p with running := false }) := by
  refine ⟨_, sampleFirst_sampled, ?_⟩
  unfold stop
  rw [Tx.bind_apply]
  rcases sampleFirst now query commits n with ⟨_ | _, p⟩
  · exact .inl rfl
  · exact .inr rfl

/-- A reset that returns takes a last sample, hands out the counters and zeroes them;
one that raises takes a sample at most. -/
theorem reset_sampled :
    ∃ p, Sampled n now (n.acceptedFirst now query commits) p ∧
      ((∃ failure, reset e now query commits zeroes n = (.error failure, p)) ∨
        reset e now query commits zeroes n = (.ok (p.core.get? e),
          { p with core := p.core.update e fun _ => ⟨.int 0, .int 0⟩ })) := by
  refine ⟨_, sampleFirst_sampled, ?_⟩
  unfold reset
  rw [Tx.bind_apply]
  rcases sampleFirst now query commits n with ⟨failure | _, p⟩
  · exact .inl ⟨failure, rfl⟩
  · cases zeroes with
    | false => exact .inl ⟨.databaseError, rfl⟩
    | true => exact .inr rfl

end Samples

end Usage
end DarkXray
