import Mathlib.Tactic.Linarith
import DarkXray.Library.Runs
import DarkXray.Usage.Charges

/-!
# Runs of local metering

One client over a run of the panel: the core process counts its bytes, may end and
is started again; samples, stops, resets and charges follow in any order, with
samples and other work of the panel also between the three parts of a reset.

Main results:

- Theorem {lit}`Counting.sampled`: a sample keeps the stored counters equal to the
  bytes that samples showed since the last reset.
- Theorem {lit}`local_metering`: over every run in which no stored counter passes the
  largest integer, the counters, the ledger and the used bytes are exact.
- Theorem {lit}`overflowing_run`: a counter that passes it is rounded.
-/

namespace DarkXray
namespace Usage

open Library Policy Nodes

/-! ## What the samples showed -/

/-- The last successful sample of every process: of those that have ended, and of the
current one. -/
structure Seen where
  ended : List (ℤ × ℤ)
  current : ℤ × ℤ
deriving DecidableEq, Repr

namespace Seen

/-- Uploaded bytes that samples showed. -/
def up (s : Seen) : ℤ :=
  (s.ended.map Prod.fst).sum + s.current.1

/-- Downloaded bytes that samples showed. -/
def down (s : Seen) : ℤ :=
  (s.ended.map Prod.snd).sum + s.current.2

/-- All bytes that samples showed. -/
def total (s : Seen) : ℤ :=
  s.up + s.down

/-- A sample of the current process. -/
def sample (s : Seen) (pair : ℤ × ℤ) : Seen :=
  { s with current := pair }

/-- A new process begins. -/
def restart (s : Seen) : Seen where
  ended := s.ended ++ [s.current]
  current := (0, 0)

/-- Nothing was sampled. -/
def zero : Seen where
  ended := []
  current := (0, 0)

@[simp]
theorem up_restart (s : Seen) : s.restart.up = s.up := by
  simp [up, restart]

@[simp]
theorem down_restart (s : Seen) : s.restart.down = s.down := by
  simp [down, restart]

theorem up_sample (s : Seen) (pair : ℤ × ℤ) : (s.sample pair).up = s.up + (pair.1 - s.current.1) := by
  simp only [up, sample]
  omega

theorem down_sample (s : Seen) (pair : ℤ × ℤ) :
    (s.sample pair).down = s.down + (pair.2 - s.current.2) := by
  simp only [down, sample]
  omega

end Seen

/-! ## The system -/

/-- Where the reset of the client stands; {lit}`abandoned` is one that raised after the
stored counters were zeroed. -/
inductive Phase where
  | idle
  | charging (final : Counters)
  | settling
  | abandoned
deriving DecidableEq, Repr

/-- The panel and the counters of its core process for the client.  The other fields
are history: what samples showed so far, at the last reset and when the counters
charged last were read, the ledger keys that charges inserted, and the counters that
were charged just now. -/
structure World where
  engine : Engine
  accounts : Accounts
  phase : Phase
  traffic : ℤ × ℤ
  seen : Seen
  zeroed : Seen
  charged : ℤ
  inserted : List String
  justCharged : Option Counters

/-- What can happen. -/
inductive Event where
  /-- The client moves bytes. -/
  | move (up down : ℕ)
  /-- The process ends by itself. -/
  | exit
  /-- {lit}`_spawn`, called when no process runs. -/
  | spawn (startup : Startup)
  /-- {lit}`collect_stats`. -/
  | collect (force strict : Bool) (now : ℤ) (query : Query) (commits : Bool)
  /-- {lit}`command('stop')`. -/
  | stop (now : ℤ) (query : Query) (commits : Bool)
  /-- {lit}`_charge_snapshot` with the current row of {lit}`core_clients`. -/
  | charge
  /-- {lit}`_apply` of a reset, up to the zeroed counters. -/
  | reset (now : ℤ) (query : Query) (commits zeroes : Bool)
  /-- Its charge of the final counters. -/
  | chargeFinal
  /-- Its last transaction. -/
  | settle (commits : Bool)
  /-- Anything else the panel does to its tables. -/
  | outside (core : Table String Counters) (accounts : Accounts)

/-- Work on other clients, on the Nodes' counters, on owners and used bytes: it leaves
the client's counters, its baseline and its {lit}`engine:` rows alone. -/
structure Apart (e : String) (s t : Accounts) : Prop where
  present : (s.clients.get? e).isSome = true → (t.clients.get? e).isSome = true
  managed : t.managed.get? e = s.managed.get? e
  billed : t.billed e = s.billed e

/-- The process answers with its own counters. -/
def Reports (e : String) (traffic : ℤ × ℤ) (query : Query) : Prop :=
  ∀ samples, query.samples = .ok samples → shown samples e = traffic

instance instDecidableReports (e : String) (traffic : ℤ × ℤ) (query : Query) :
    Decidable (Reports e traffic query) :=
  decidable_of_iff (query.samples.toOption.all fun p => shown p e = traffic) (by
    unfold Reports
    cases query.samples <;> simp [Except.toOption])

/-- Ledger keys that a charge added. -/
def newKeys (s t : Accounts) : List String :=
  (t.trafficLedger.rows.map Prod.fst).filter fun key =>
    key ∉ s.trafficLedger.rows.map Prod.fst

namespace World

variable (digest : String → String) (e : String)

/-- The world after the engine took or refused a sample. -/
def sampled (w : World) (engine : Engine) (samples : Option (Table String (ℤ × ℤ))) : World :=
  { w with
    engine := engine
    seen := samples.elim w.seen fun samples => w.seen.sample (shown samples e)
    justCharged := none }

/-- The world after a charge of some counters, which were read when samples had shown
{lit}`bytes`. -/
def account (w : World) (final : Counters) (bytes : ℤ) (result : Except Failure Unit × Accounts) :
    World :=
  match result.1 with
  | .ok _ => { w with
      accounts := result.2
      charged := bytes
      inserted := w.inserted ++ newKeys w.accounts result.2
      justCharged := some final }
  | .error _ => { w with accounts := result.2, justCharged := none }

/-- The world after {lit}`CoreEngine.reset`. -/
def zero (w : World) (result : Except Failure (Option Counters)) : World :=
  match result with
  | .ok (some final) => { w with phase := .charging final, zeroed := w.seen }
  | .ok none => { w with phase := .settling, zeroed := w.seen }
  | .error _ => w

/-- The manager holds its lock over a whole reset. -/
def resetting (w : World) : Bool :=
  match w.phase with
  | .charging _ => true
  | .settling => true
  | .idle => false
  | .abandoned => false

/-- One event, where it is possible. -/
inductive Step : World → Event → World → Prop
  | move (w : World) (up down : ℕ) (hrunning : w.engine.running = true) :
      Step w (.move up down)
        { w with traffic := (w.traffic.1 + up, w.traffic.2 + down), justCharged := none }
  | exit (w : World) :
      Step w .exit { w with engine := { w.engine with running := false }, justCharged := none }
  | spawnRefused (w : World) (hstopped : w.engine.running = false) :
      Step w (.spawn .refused) { w with justCharged := none }
  | spawn (w : World) (startup : Startup) (hstopped : w.engine.running = false)
      (hallowed : startup ≠ .refused) :
      Step w (.spawn startup) { w with
        engine := (Usage.spawn startup w.engine).2
        traffic := (0, 0)
        seen := w.seen.restart
        justCharged := none }
  | collect (w : World) (force strict : Bool) (now : ℤ) (query : Query) (commits : Bool)
      (hreports : Reports e w.traffic query) :
      Step w (.collect force strict now query commits)
        (w.sampled e (collectStats force strict now query commits w.engine).2
          (w.engine.accepted force now query commits))
  | stop (w : World) (now : ℤ) (query : Query) (commits : Bool)
      (hreports : Reports e w.traffic query) :
      Step w (.stop now query commits)
        (w.sampled e (Usage.stop now query commits w.engine).2
          (w.engine.acceptedFirst now query commits))
  | charge (w : World) (final : Counters) (row : ManagedMeter) (hfree : w.resetting = false)
      (hfinal : w.engine.core.get? e = some final) (hrow : w.accounts.managed.get? e = some row) :
      Step w .charge
        (w.account final w.seen.total (chargeSnapshot digest e row (some final) w.accounts))
  | reset (w : World) (now : ℤ) (query : Query) (commits zeroes : Bool)
      (hfree : w.resetting = false) (hreports : Reports e w.traffic query) :
      Step w (.reset now query commits zeroes)
        ((w.sampled e (Usage.reset e now query commits zeroes w.engine).2
          (w.engine.acceptedFirst now query commits)).zero
            (Usage.reset e now query commits zeroes w.engine).1)
  | chargeFinal (w : World) (final : Counters) (row : ManagedMeter)
      (hphase : w.phase = .charging final) (hrow : w.accounts.managed.get? e = some row) :
      Step w .chargeFinal
        { w.account final w.zeroed.total (chargeSnapshot digest e row (some final) w.accounts) with
          phase := if (chargeSnapshot digest e row (some final) w.accounts).1.isOk = true then
            .settling else .abandoned }
  | settle (w : World) (commits : Bool) (hphase : w.phase = .settling) :
      Step w (.settle commits) { w with
        accounts := (settleReset e commits w.accounts).2
        phase := if (settleReset e commits w.accounts).1.isOk = true then .idle else .abandoned
        justCharged := none }
  | outside (w : World) (core : Table String Counters) (accounts : Accounts)
      (hcore : core.get? e = w.engine.core.get? e) (hapart : Apart e w.accounts accounts) :
      Step w (.outside core accounts)
        { w with
          engine := { w.engine with core := core }, accounts := accounts, justCharged := none }

end World

/-! ## The stored counters -/

/-- A column can take a difference without leaving the integers. -/
def Stored.Fits (v : Stored) (d : ℤ) : Prop :=
  match v with
  | .int n => n + d ≤ maxInt
  | .real _ => False

instance instDecidableFits (v : Stored) (d : ℤ) : Decidable (v.Fits d) :=
  match v with
  | .int n => inferInstanceAs (Decidable (n + d ≤ maxInt))
  | .real _ => inferInstanceAs (Decidable False)

/-- A sample takes neither stored counter of the client past the largest integer. -/
def Engine.Fits (n : Engine) (e : String) (samples : Option (Table String (ℤ × ℤ))) : Prop :=
  ∀ p, samples = some p → ∀ new, p.get? e = some new → ∀ c, n.core.get? e = some c →
    c.up.Fits (counterDelta new.1 (shown n.lastSamples e).1) ∧
      c.down.Fits (counterDelta new.2 (shown n.lastSamples e).2)

instance instDecidableEngineFits (n : Engine) (e : String)
    (samples : Option (Table String (ℤ × ℤ))) : Decidable (n.Fits e samples) :=
  decidable_of_iff (samples.all fun p => (p.get? e).all fun new => (n.core.get? e).all fun c =>
    decide (c.up.Fits (counterDelta new.1 (shown n.lastSamples e).1) ∧
      c.down.Fits (counterDelta new.2 (shown n.lastSamples e).2))) (by
    simp [Engine.Fits, Option.all_eq_true])

/-- The stored counters are what samples showed since the counters were zeroed, and the
remembered sample is the last one of the running process. -/
structure Counting (e : String) (n : Engine) (traffic : ℤ × ℤ) (seen zeroed : Seen) : Prop where
  row : n.core.get? e = some ⟨.int (seen.up - zeroed.up), .int (seen.down - zeroed.down)⟩
  up : zeroed.up ≤ seen.up
  down : zeroed.down ≤ seen.down
  current : 0 ≤ seen.current.1 ∧ 0 ≤ seen.current.2
  remembered : n.running = true → shown n.lastSamples e = seen.current
  traffic : n.running = true → seen.current.1 ≤ traffic.1 ∧ seen.current.2 ≤ traffic.2

section Counting

variable {e : String} {n m : Engine} {traffic : ℤ × ℤ} {seen zeroed : Seen} {now : ℤ}
  {force commits : Bool} {query : Query} {samples : Option (Table String (ℤ × ℤ))}

theorem counterDelta_of_le {reported raw : ℤ} (h : raw ≤ reported) :
    counterDelta reported raw = reported - raw := by
  simp [counterDelta, h]

/-- Only a running process is sampled. -/
theorem accepted_running {p : Table String (ℤ × ℤ)}
    (h : n.accepted force now query commits = some p) :
    n.running = true ∧ query.samples = .ok p := by
  unfold Engine.accepted at h
  split at h
  · rename_i hdue
    constructor
    · have hrunning := hdue.1
      simp only [Engine.due, Bool.and_eq_true] at hrunning
      exact hrunning.1
    · cases hq : query.samples with
      | ok q => rw [hq] at h; cases h; rfl
      | error fault => rw [hq] at h; cases h
  · cases h

/-- Adding a difference that fits. -/
theorem Stored.add_fits {n d : ℤ} (hn : 0 ≤ n) (hd : 0 ≤ d) (hfits : (Stored.int n).Fits d) :
    (Stored.int n).add d = .int (n + d) :=
  Stored.add_int (by omega) hfits

/-- A recorded sample of the running process keeps the counters exact. -/
theorem Counting.recorded {p : Table String (ℤ × ℤ)} (h : Counting e n traffic seen zeroed)
    (hrunning : n.running = true) (hshown : shown p e = traffic) (hfits : n.Fits e (some p)) :
    Counting e (n.recorded now p) traffic (seen.sample traffic) zeroed := by
  have hlast := h.remembered hrunning
  obtain ⟨hupLe, hdownLe⟩ := h.traffic hrunning
  obtain ⟨hcurrentUp, hcurrentDown⟩ := h.current
  have hzeroedUp := h.up
  have hzeroedDown := h.down
  have hup := Seen.up_sample seen traffic
  have hdown := Seen.down_sample seen traffic
  refine ⟨?_, by omega, by omega, ⟨by simp only [Seen.sample]; omega,
    by simp only [Seen.sample]; omega⟩, fun _ => ?_, fun _ => ⟨le_rfl, le_rfl⟩⟩
  · have hcore : (n.recorded now p).core = addSamples n.lastSamples p n.core := rfl
    rw [hcore, get?_addSamples, h.row]
    cases hnew : p.get? e with
    | none =>
        -- the process has moved nothing for the client yet
        have hzero : traffic = (0, 0) := by
          rw [← hshown, shown, hnew]
          rfl
        rw [hzero] at hupLe hdownLe hup hdown
        rw [hzero, hup, hdown]
        have hsameUp : (0 : ℤ) - seen.current.1 = 0 := by simp only at hupLe; omega
        have hsameDown : (0 : ℤ) - seen.current.2 = 0 := by simp only at hdownLe; omega
        simp only [hsameUp, hsameDown, add_zero]
    | some new =>
        have hpair : new = traffic := by
          rw [← hshown, shown, hnew]
          rfl
        subst hpair
        obtain ⟨hfitsUp, hfitsDown⟩ := hfits p rfl new hnew _ h.row
        rw [hlast] at hfitsUp hfitsDown
        rw [counterDelta_of_le hupLe] at hfitsUp
        rw [counterDelta_of_le hdownLe] at hfitsDown
        simp only [Option.map_some]
        rw [Counters.after, hlast, counterDelta_of_le hupLe,
          counterDelta_of_le hdownLe, Stored.add_fits (by omega) (by omega) hfitsUp,
          Stored.add_fits (by omega) (by omega) hfitsDown, hup, hdown]
        simp only [add_sub_right_comm]
  · have hsamples : (n.recorded now p).lastSamples = remember p n.lastSamples := rfl
    rw [hsamples, shown_remember]
    cases hnew : p.get? e with
    | none =>
        have hzero : traffic = (0, 0) := by
          rw [← hshown, shown, hnew]
          rfl
        rw [hzero] at hupLe hdownLe
        rw [hlast, hzero, Option.getD_none]
        simp only [Seen.sample]
        exact Prod.ext (by simp only at hupLe ⊢; omega) (by simp only at hdownLe ⊢; omega)
    | some new =>
        have hpair : new = traffic := by
          rw [← hshown, shown, hnew]
          rfl
        rw [hpair]
        rfl

/-- So does a call that takes or refuses a sample. -/
theorem Counting.sampled (h : Counting e n traffic seen zeroed)
    (hsampled : Sampled n now (n.accepted force now query commits) m)
    (hreports : Reports e traffic query)
    (hfits : n.Fits e (n.accepted force now query commits)) :
    Counting e m traffic
      ((n.accepted force now query commits).elim seen fun p => seen.sample (shown p e)) zeroed := by
  generalize hacc : n.accepted force now query commits = samples at hsampled hfits
  cases hsampled with
  | quiet text => exact ⟨h.row, h.up, h.down, h.current, h.remembered, h.traffic⟩
  | recorded p =>
      obtain ⟨hrunning, hquery⟩ := accepted_running hacc
      have hshown := hreports p hquery
      simp only [Option.elim_some, hshown]
      exact h.recorded hrunning hshown hfits

/-- And the sample in front of a stop or a reset. -/
theorem Counting.sampledFirst (h : Counting e n traffic seen zeroed)
    (hsampled : Sampled n now (n.acceptedFirst now query commits) m)
    (hreports : Reports e traffic query)
    (hfits : n.Fits e (n.acceptedFirst now query commits)) :
    Counting e m traffic
      ((n.acceptedFirst now query commits).elim seen fun p => seen.sample (shown p e)) zeroed := by
  cases hwrites : n.writesEnabled with
  | true =>
      have hfirst : n.acceptedFirst now query commits = n.accepted true now query commits := by
        simp [Engine.acceptedFirst, hwrites]
      rw [hfirst] at hsampled hfits ⊢
      exact h.sampled hsampled hreports hfits
  | false =>
      have hfirst : n.acceptedFirst now query commits = none := by
        simp [Engine.acceptedFirst, hwrites]
      rw [hfirst] at hsampled ⊢
      cases hsampled with
      | quiet text => exact ⟨h.row, h.up, h.down, h.current, h.remembered, h.traffic⟩

/-- Samples never show less than before. -/
theorem Counting.seen_le (h : Counting e n traffic seen zeroed)
    (hreports : Reports e traffic query) (force : Bool) (now : ℤ) (commits : Bool) :
    seen.up ≤ ((n.accepted force now query commits).elim seen fun p => seen.sample (shown p e)).up ∧
      seen.down ≤
        ((n.accepted force now query commits).elim seen fun p => seen.sample (shown p e)).down := by
  cases hacc : n.accepted force now query commits with
  | none => exact ⟨le_rfl, le_rfl⟩
  | some p =>
      obtain ⟨hrunning, hquery⟩ := accepted_running hacc
      have htraffic := h.traffic hrunning
      rw [Option.elim_some, hreports p hquery, Seen.up_sample, Seen.down_sample]
      omega

theorem Counting.seen_leFirst (h : Counting e n traffic seen zeroed)
    (hreports : Reports e traffic query) (now : ℤ) (commits : Bool) :
    seen.up ≤ ((n.acceptedFirst now query commits).elim seen fun p => seen.sample (shown p e)).up ∧
      seen.down ≤
        ((n.acceptedFirst now query commits).elim seen fun p => seen.sample (shown p e)).down := by
  unfold Engine.acceptedFirst
  split
  · exact h.seen_le hreports true now commits
  · exact ⟨le_rfl, le_rfl⟩

/-- A process that has ended is not sampled any more. -/
theorem Counting.ended (h : Counting e n traffic seen zeroed) :
    Counting e { n with running := false } traffic seen zeroed :=
  ⟨h.row, h.up, h.down, h.current, fun hrunning => absurd hrunning Bool.false_ne_true,
    fun hrunning => absurd hrunning Bool.false_ne_true⟩

/-- A new process counts from zero, and nothing of it is remembered. -/
theorem Counting.spawned {running : Bool} (h : Counting e n traffic seen zeroed) :
    Counting e { n with lastSamples := .empty, lastStats := 0, running := running } (0, 0)
      seen.restart zeroed := by
  refine ⟨?_, ?_, ?_, ⟨le_rfl, le_rfl⟩, fun _ => rfl, fun _ => ⟨le_rfl, le_rfl⟩⟩
  · rw [Seen.up_restart, Seen.down_restart]
    exact h.row
  · rw [Seen.up_restart]
    exact h.up
  · rw [Seen.down_restart]
    exact h.down

/-- Zeroing the counters begins the count again. -/
theorem Counting.zeroedRow (h : Counting e n traffic seen zeroed) :
    Counting e { n with core := n.core.update e fun _ => ⟨.int 0, .int 0⟩ } traffic seen seen := by
  refine ⟨?_, le_rfl, le_rfl, h.current, h.remembered, h.traffic⟩
  rw [Table.get?_update, if_pos rfl, h.row]
  simp

end Counting

/-! ## The accounts -/

/-- What is charged so far, against the baseline that is stored; during a reset the
baseline still belongs to the counters that were zeroed. -/
def Settled (phase : Phase) (row : ManagedMeter) (seen zeroed : Seen) (charged : ℤ) : Prop :=
  match phase with
  | .idle => 0 ≤ row.lastUp ∧ 0 ≤ row.lastDown ∧ row.lastUp ≤ seen.up - zeroed.up ∧
      row.lastDown ≤ seen.down - zeroed.down ∧ charged = zeroed.total + row.lastUp + row.lastDown
  | .charging final => ∃ up down, final = ⟨.int up, .int down⟩ ∧ row.lastUp ≤ up ∧
      row.lastDown ≤ down ∧ charged + (up - row.lastUp) + (down - row.lastDown) = zeroed.total
  | .settling => charged = zeroed.total
  | .abandoned => False

/-- The used bytes are the counters that were charged just now with those of the Nodes. -/
def UsedExact (e : String) (accounts : Accounts) (c : Counters) : Prop :=
  ∃ user up down, accounts.clients.get? e = some user ∧ c = ⟨.int up, .int down⟩ ∧
    user.usedBytes = up + down + accounts.remote e

/-- The invariant of a run. -/
structure Sound (digest : String → String) (e : String) (w : World) : Prop where
  counting : Counting e w.engine w.traffic w.seen w.zeroed
  present : ∃ user, w.accounts.clients.get? e = some user
  row : ∃ row, w.accounts.managed.get? e = some row ∧
    Settled w.phase row w.seen w.zeroed w.charged ∧
      ∀ key ∈ w.inserted, ∃ k, k ≤ row.seq ∧ key = eventId digest e k
  nodup : w.inserted.Nodup
  billed : w.accounts.billed e = w.charged
  used : ∀ c, w.justCharged = some c → UsedExact e w.accounts c

/-- The condition on a step: no sample takes a stored counter of the client past the
largest integer. -/
def World.Fits (e : String) (w : World) : Event → Prop
  | .collect force _ now query commits =>
      w.engine.Fits e (w.engine.accepted force now query commits)
  | .stop now query commits => w.engine.Fits e (w.engine.acceptedFirst now query commits)
  | .reset now query commits _ => w.engine.Fits e (w.engine.acceptedFirst now query commits)
  | .move _ _ => True
  | .exit => True
  | .spawn _ => True
  | .charge => True
  | .chargeFinal => True
  | .settle _ => True
  | .outside _ _ => True

instance instDecidableFitsWorld (e : String) (w : World) (event : Event) :
    Decidable (w.Fits e event) :=
  match event with
  | .collect force _ now query commits =>
      inferInstanceAs (Decidable (w.engine.Fits e (w.engine.accepted force now query commits)))
  | .stop now query commits =>
      inferInstanceAs (Decidable (w.engine.Fits e (w.engine.acceptedFirst now query commits)))
  | .reset now query commits _ =>
      inferInstanceAs (Decidable (w.engine.Fits e (w.engine.acceptedFirst now query commits)))
  | .move _ _ => inferInstanceAs (Decidable True)
  | .exit => inferInstanceAs (Decidable True)
  | .spawn _ => inferInstanceAs (Decidable True)
  | .charge => inferInstanceAs (Decidable True)
  | .chargeFinal => inferInstanceAs (Decidable True)
  | .settle _ => inferInstanceAs (Decidable True)
  | .outside _ _ => inferInstanceAs (Decidable True)

section Accounts

variable {digest : String → String} {e : String} {w : World} {row : ManagedMeter}
  {seen seen' zeroed : Seen} {charged : ℤ} {phase : Phase} {s t : Accounts}

/-- Further samples settle nothing and unsettle nothing. -/
theorem Settled.mono (h : Settled phase row seen zeroed charged) (hup : seen.up ≤ seen'.up)
    (hdown : seen.down ≤ seen'.down) : Settled phase row seen' zeroed charged := by
  cases phase with
  | idle =>
      obtain ⟨h1, h2, h3, h4, h5⟩ := h
      exact ⟨h1, h2, by omega, by omega, h5⟩
  | charging final => exact h
  | settling => exact h
  | abandoned => exact h

/-- The keys that a charge added: none, or the one of the next number. -/
theorem newKeys_of_charged {up down : ℤ} (h : Charged digest e row up down s t) :
    ∃ m, t.managed.get? e = some m ∧ m.lastUp = up ∧ m.lastDown = down ∧
      ((row.seq ≤ m.seq ∧ newKeys s t = []) ∨
        (row.seq + 1 = m.seq ∧ newKeys s t = [eventId digest e m.seq])) := by
  obtain ⟨m, hm, hup, hdown, hledger⟩ := h.managed
  refine ⟨m, hm, hup, hdown, ?_⟩
  rcases hledger with ⟨hseq, hsame⟩ | ⟨hseq, r, hnew, hinsert⟩
  · left
    refine ⟨hseq, ?_⟩
    rw [newKeys, hsame, List.filter_eq_nil_iff]
    intro key hkey
    simpa using hkey
  · right
    refine ⟨hseq, ?_⟩
    have hnot := Table.get?_eq_none_iff.mp hnew
    have hrows : t.trafficLedger.rows = s.trafficLedger.rows ++ [(eventId digest e m.seq, r)] := by
      rw [hinsert, Table.insert, dif_neg hnot]
    rw [newKeys, hrows, List.map_append, List.filter_append]
    have hold : ((s.trafficLedger.rows.map Prod.fst).filter fun key =>
        key ∉ s.trafficLedger.rows.map Prod.fst) = [] := by
      rw [List.filter_eq_nil_iff]
      intro key hkey
      simpa using hkey
    rw [hold]
    simp only [List.map_cons, List.map_nil, List.nil_append]
    rw [List.filter_cons_of_pos (by simpa using hnot), List.filter_nil]

/-- Steps of the engine alone. -/
theorem Sound.of_engine {n : Engine} {traffic : ℤ × ℤ} (h : Sound digest e w)
    (hcounting : Counting e n traffic seen w.zeroed) (hup : w.seen.up ≤ seen.up)
    (hdown : w.seen.down ≤ seen.down) :
    Sound digest e
      { w with engine := n, traffic := traffic, seen := seen, justCharged := none } := by
  obtain ⟨row, hrow, hsettled, hkeys⟩ := h.row
  exact ⟨hcounting, h.present, ⟨row, hrow, hsettled.mono hup hdown, hkeys⟩, h.nodup, h.billed,
    fun _ hnone => absurd hnone.symm (Option.some_ne_none _)⟩

/-- A charge that brings the ledger to a number of bytes. -/
theorem Sound.charge {up down bytes : ℤ} (h : Sound digest e w)
    (hrow : w.accounts.managed.get? e = some row)
    (hcharged : Charged digest e row up down w.accounts t)
    (hbytes : w.charged + (counterDelta up row.lastUp + counterDelta down row.lastDown) = bytes)
    (hsettled : ∀ m : ManagedMeter, m.lastUp = up → m.lastDown = down →
      Settled phase m w.seen w.zeroed bytes) :
    Sound digest e { w with
      accounts := t
      charged := bytes
      inserted := w.inserted ++ newKeys w.accounts t
      justCharged := some ⟨.int up, .int down⟩
      phase := phase } := by
  obtain ⟨m, hm, hup, hdown, hnew⟩ := newKeys_of_charged hcharged
  obtain ⟨row', hrow', _, hkeys⟩ := h.row
  have hsame : row' = row := Option.some.inj (hrow'.symm.trans hrow)
  subst hsame
  obtain ⟨user, huser, hused⟩ := hcharged.used
  refine ⟨h.counting, ⟨user, huser⟩, ⟨m, hm, hsettled m hup hdown, ?_⟩, ?_, ?_, ?_⟩
  · intro key hkey
    rcases List.mem_append.mp hkey with hold | hadded
    · obtain ⟨k, hk, rfl⟩ := hkeys key hold
      exact ⟨k, by omega, rfl⟩
    · rcases hnew with ⟨_, hnone⟩ | ⟨hseq, hone⟩
      · rw [hnone] at hadded
        cases hadded
      · rw [hone, List.mem_singleton] at hadded
        exact ⟨m.seq, le_rfl, hadded⟩
  · -- a key that is added has a number that no earlier one has
    rcases hnew with ⟨_, hnone⟩ | ⟨hseq, hone⟩
    · rw [hnone, List.append_nil]
      exact h.nodup
    · rw [hone]
      refine List.Nodup.append h.nodup (List.nodup_singleton _) ?_
      rw [List.disjoint_singleton]
      intro hmem
      obtain ⟨k, hk, heq⟩ := hkeys _ hmem
      have := eventId_injective heq
      omega
  · rw [← hbytes, ← h.billed]
    exact hcharged.billed
  · rintro c ⟨⟩
    exact ⟨user, up, down, huser, rfl, hused⟩

/-- A charge that raised. -/
theorem Sound.uncharged (h : Sound digest e w) :
    Sound digest e { w with accounts := w.accounts, justCharged := none } :=
  ⟨h.counting, h.present, h.row, h.nodup, h.billed,
    fun _ hnone => absurd hnone.symm (Option.some_ne_none _)⟩

/-- The counters go back to zero while a reset begins. -/
theorem Sound.zero {n : Engine} (h : Sound digest e w) (hidle : w.phase = .idle)
    (hcounting : Counting e n w.traffic w.seen w.seen) {up down : ℤ}
    (hup : up = w.seen.up - w.zeroed.up) (hdown : down = w.seen.down - w.zeroed.down) :
    Sound digest e { w with
      engine := n, phase := .charging ⟨.int up, .int down⟩, zeroed := w.seen } := by
  obtain ⟨row, hrow, hsettled, hkeys⟩ := h.row
  rw [hidle] at hsettled
  obtain ⟨_, _, hupLe, hdownLe, hcharged⟩ := hsettled
  refine ⟨hcounting, h.present, ⟨row, hrow, ⟨up, down, rfl, by omega, by omega, ?_⟩, hkeys⟩,
    h.nodup, h.billed, h.used⟩
  rw [hcharged, hup, hdown]
  simp only [Seen.total]
  omega

theorem account_ok {final : Counters} {bytes : ℤ} {r : Unit} :
    w.account final bytes (.ok r, t) = { w with
      accounts := t
      charged := bytes
      inserted := w.inserted ++ newKeys w.accounts t
      justCharged := some final } :=
  rfl

/-- The baseline of an idle client is charged up to its counters. -/
theorem Sound.chargeCurrent (h : Sound digest e w) (hidle : w.phase = .idle) {final : Counters}
    (hfinal : w.engine.core.get? e = some final) (hrow : w.accounts.managed.get? e = some row)
    {r : Unit} (hresult : chargeSnapshot digest e row (some final) w.accounts = (.ok r, t)) :
    Sound digest e (w.account final w.seen.total (.ok r, t)) := by
  obtain ⟨user, huser⟩ := h.present
  obtain ⟨up, down, rfl, hcharged⟩ := chargeSnapshot_ok huser hrow hresult
  obtain ⟨row', hrow', hsettled, _⟩ := h.row
  have hsame : row' = row := Option.some.inj (hrow'.symm.trans hrow)
  subst hsame
  rw [hidle] at hsettled
  obtain ⟨_, _, hupLe, hdownLe, hsum⟩ := hsettled
  have hcounters := Option.some.inj (hfinal.symm.trans h.counting.row)
  simp only [Counters.mk.injEq, Stored.int.injEq] at hcounters
  obtain ⟨hup, hdown⟩ := hcounters
  have hzeroedUp := h.counting.up
  have hzeroedDown := h.counting.down
  rw [account_ok]
  refine h.charge hrow hcharged ?_ fun m hm hm' => ?_
  · rw [counterDelta_of_le (by omega), counterDelta_of_le (by omega), hsum, hup, hdown]
    simp only [Seen.total]
    omega
  · rw [hidle]
    refine ⟨by omega, by omega, by omega, by omega, ?_⟩
    rw [hm, hm', hup, hdown]
    simp only [Seen.total]
    omega

/-- The final counters of a reset are charged up to where they were zeroed. -/
theorem Sound.chargeZeroed (h : Sound digest e w) {final : Counters}
    (hphase : w.phase = .charging final) (hrow : w.accounts.managed.get? e = some row)
    {r : Unit} (hresult : chargeSnapshot digest e row (some final) w.accounts = (.ok r, t)) :
    Sound digest e { w.account final w.zeroed.total (.ok r, t) with phase := .settling } := by
  obtain ⟨user, huser⟩ := h.present
  obtain ⟨up, down, rfl, hcharged⟩ := chargeSnapshot_ok huser hrow hresult
  obtain ⟨row', hrow', hsettled, _⟩ := h.row
  have hsame : row' = row := Option.some.inj (hrow'.symm.trans hrow)
  subst hsame
  rw [hphase] at hsettled
  obtain ⟨up', down', hfinal, hupLe, hdownLe, hsum⟩ := hsettled
  simp only [Counters.mk.injEq, Stored.int.injEq] at hfinal
  obtain ⟨rfl, rfl⟩ := hfinal
  have hbytes : w.charged + (counterDelta up row'.lastUp + counterDelta down row'.lastDown) =
      w.zeroed.total := by
    rw [counterDelta_of_le hupLe, counterDelta_of_le hdownLe]
    omega
  rw [account_ok]
  exact h.charge hrow hcharged hbytes fun m _ _ => rfl

/-- The last transaction of a reset begins a new baseline. -/
theorem Sound.settle (h : Sound digest e w) (hphase : w.phase = .settling) :
    Sound digest e { w with
      accounts := (settleReset e true w.accounts).2, phase := .idle, justCharged := none } := by
  obtain ⟨row, hrow, hsettled, hkeys⟩ := h.row
  obtain ⟨user, huser⟩ := h.present
  rw [hphase] at hsettled
  rw [settleReset_apply, if_pos rfl]
  have hup := h.counting.up
  have hdown := h.counting.down
  refine ⟨h.counting, ⟨{ user with usedBytes := 0 }, by simp [huser]⟩,
    ⟨{ row with lastUp := 0, lastDown := 0 }, by simp [hrow], ?_, hkeys⟩, h.nodup, h.billed,
    fun _ hnone => absurd hnone.symm (Option.some_ne_none _)⟩
  refine ⟨le_rfl, le_rfl, by simp only; omega, by simp only; omega, ?_⟩
  rw [show w.charged = w.zeroed.total from hsettled]
  simp only
  omega

/-- Other work of the panel. -/
theorem Sound.outside {core : Table String Counters} {accounts : Accounts} (h : Sound digest e w)
    (hcore : core.get? e = w.engine.core.get? e) (hapart : Apart e w.accounts accounts) :
    Sound digest e { w with
      engine := { w.engine with core := core }, accounts := accounts, justCharged := none } := by
  obtain ⟨row, hrow, hsettled, hkeys⟩ := h.row
  obtain ⟨user, huser⟩ := h.present
  have hc := h.counting
  have hpresent : (accounts.clients.get? e).isSome = true := hapart.present (by simp [huser])
  refine ⟨⟨hcore.trans hc.row, hc.up, hc.down, hc.current, hc.remembered, hc.traffic⟩,
    Option.isSome_iff_exists.mp hpresent, ⟨row, hapart.managed.trans hrow, hsettled, hkeys⟩,
    h.nodup, hapart.billed.trans h.billed, fun _ hnone => absurd hnone.symm (Option.some_ne_none _)⟩

/-- No reset is under way, as long as none is left half done. -/
theorem Sound.idle (h : Sound digest e w) (hfree : w.resetting = false) : w.phase = .idle := by
  obtain ⟨row, _, hsettled, _⟩ := h.row
  cases hphase : w.phase with
  | idle => rfl
  | charging final => simp [World.resetting, hphase] at hfree
  | settling => simp [World.resetting, hphase] at hfree
  | abandoned =>
      rw [hphase] at hsettled
      exact absurd hsettled id

end Accounts

/-- A step whose samples fit, and which leaves no reset half done, keeps the
invariant. -/
theorem Sound.step {digest : String → String} {e : String} {w w' : World} {event : Event}
    (h : Sound digest e w) (hstep : World.Step digest e w event w') (hfits : w.Fits e event)
    (hwhole : w'.phase ≠ .abandoned) : Sound digest e w' := by
  cases hstep with
  | move up down hrunning =>
      have hc := h.counting
      refine h.of_engine ⟨hc.row, hc.up, hc.down, hc.current, hc.remembered, fun hr => ?_⟩ le_rfl
        le_rfl
      have := hc.traffic hr
      simp only
      omega
  | exit => exact h.of_engine h.counting.ended le_rfl le_rfl
  | spawnRefused hstopped => exact h.of_engine h.counting le_rfl le_rfl
  | spawn startup hstopped hallowed =>
      have hspawn : (Usage.spawn startup w.engine).2 = { w.engine with
          lastSamples := .empty, lastStats := 0, running := decide (startup = .ready) } := by
        cases startup with
        | refused => exact absurd rfl hallowed
        | exited => rfl
        | unready => rfl
        | ready => rfl
      rw [hspawn]
      exact h.of_engine h.counting.spawned (Seen.up_restart _).ge (Seen.down_restart _).ge
  | collect force strict now query commits hreports =>
      have hsampled : Sampled w.engine now (w.engine.accepted force now query commits)
          (collectStats force strict now query commits w.engine).2 := collectStats_sampled
      have hcounting := h.counting.sampled hsampled hreports hfits
      have hle := h.counting.seen_le hreports force now commits
      exact h.of_engine hcounting hle.1 hle.2
  | stop now query commits hreports =>
      obtain ⟨p, hsampled, hend⟩ := stop_sampled
      have hcounting := h.counting.sampledFirst hsampled hreports hfits
      have hle := h.counting.seen_leFirst hreports now commits
      unfold World.sampled
      rcases hend with hend | hend
      · rw [hend]
        exact h.of_engine hcounting hle.1 hle.2
      · rw [hend]
        exact h.of_engine hcounting.ended hle.1 hle.2
  | charge final row hfree hfinal hrow =>
      rcases hresult : chargeSnapshot digest e row (some final) w.accounts with ⟨failure | r, t⟩
      · have hsame := atomic_chargeSnapshot _ _ _ hresult
        subst hsame
        exact h.uncharged
      · exact h.chargeCurrent (h.idle hfree) hfinal hrow hresult
  | reset now query commits zeroes hfree hreports =>
      obtain ⟨p, hsampled, hend⟩ := reset_sampled
      have hcounting := h.counting.sampledFirst hsampled hreports hfits
      have hle := h.counting.seen_leFirst hreports now commits
      rcases hend with ⟨failure, hend⟩ | hend
      · rw [hend]
        exact h.of_engine hcounting hle.1 hle.2
      · rw [hend]
        have hstep := h.of_engine hcounting hle.1 hle.2
        rw [hcounting.row]
        exact hstep.zero (h.idle hfree) hcounting.zeroedRow rfl rfl
  | chargeFinal final row hphase hrow =>
      rcases hresult : chargeSnapshot digest e row (some final) w.accounts with ⟨failure | r, t⟩
      · rw [hresult] at hwhole
        exact absurd rfl hwhole
      · exact h.chargeZeroed hphase hrow hresult
  | settle commits hphase =>
      cases commits with
      | true => exact h.settle hphase
      | false => exact absurd rfl hwhole
  | outside core accounts hcore hapart => exact h.outside hcore hapart

/-! ## Runs -/

/-- A client that was just created: its counters and its baseline are zero, samples
have not shown it yet, and nothing was charged. -/
structure Start (e : String) (w : World) : Prop where
  row : w.engine.core.get? e = some ⟨.int 0, .int 0⟩
  unseen : shown w.engine.lastSamples e = (0, 0)
  traffic : 0 ≤ w.traffic.1 ∧ 0 ≤ w.traffic.2
  present : ∃ user, w.accounts.clients.get? e = some user
  managed : ∃ row, w.accounts.managed.get? e = some row ∧ row.lastUp = 0 ∧ row.lastDown = 0
  billed : w.accounts.billed e = 0
  idle : w.phase = .idle
  history : w.seen = .zero ∧ w.zeroed = .zero ∧ w.charged = 0 ∧ w.inserted = [] ∧
    w.justCharged = none

/-- A step that leaves no reset half done. -/
def World.WholeStep (digest : String → String) (e : String) (w : World) (event : Event)
    (w' : World) : Prop :=
  w.Step digest e event w' ∧ w'.phase ≠ .abandoned

/-- Metering is exact: the stored counters are what samples showed since the last
reset, the ledger is what they had shown at the last charge, no two charges inserted
the same key, and right after a charge the used bytes are the charged counters with
those of the Nodes. -/
structure Exact (e : String) (w : World) : Prop where
  counters : ∃ c, w.engine.core.get? e = some c ∧
    c.up.value + c.down.value = w.seen.total - w.zeroed.total
  ledger : w.accounts.billed e = w.charged
  inserted : w.inserted.Nodup
  used : ∀ c, w.justCharged = some c → UsedExact e w.accounts c

section Runs

variable {digest : String → String} {e : String} {w w' : World} {events : List Event}

theorem Start.sound (h : Start e w) : Sound digest e w := by
  obtain ⟨hseen, hzeroed, hcharged, hinserted, hjust⟩ := h.history
  obtain ⟨row, hrow, hup, hdown⟩ := h.managed
  refine ⟨?_, h.present, ⟨row, hrow, ?_, ?_⟩, ?_, ?_, ?_⟩
  · rw [hseen, hzeroed]
    exact ⟨h.row, le_rfl, le_rfl, ⟨le_rfl, le_rfl⟩, fun _ => h.unseen, fun _ => h.traffic⟩
  · rw [h.idle, hseen, hzeroed, hcharged]
    refine ⟨hup.ge, hdown.ge, hup.le, hdown.le, ?_⟩
    rw [hup, hdown]
    rfl
  · rw [hinserted]
    exact fun key hkey => absurd hkey List.not_mem_nil
  · rw [hinserted]
    exact List.nodup_nil
  · rw [h.billed, hcharged]
  · rw [hjust]
    exact fun _ hnone => absurd hnone.symm (Option.some_ne_none _)

theorem Sound.exact (h : Sound digest e w) : Exact e w := by
  refine ⟨⟨_, h.counting.row, ?_⟩, h.billed, h.nodup, h.used⟩
  simp only [Seen.total, Stored.value]
  omega

/-- Over every run in which no sample takes a stored counter past the largest integer,
and no reset is left half done, local metering is exact. -/
theorem local_metering (hstart : Start e w)
    (hrun : Run (Guarded (World.WholeStep digest e) (World.Fits e)) w events w') :
    Exact e w' := by
  have hsound : Sound digest e w' :=
    hrun.invariant hstart.sound fun a event b ha hstep =>
      ha.step hstep.1.1 hstep.2 hstep.1.2
  exact hsound.exact

end Runs

/-! ## Two runs -/

/-- Two counters of a client in an answer. -/
def sampleAnswer (up down : ℤ) : Query :=
  .answer [.item "user>>>c>>>traffic>>>uplink" (.ok up),
    .item "user>>>c>>>traffic>>>downlink" (.ok down)]

/-- A panel with one client that was just created. -/
def freshWorld : World where
  engine := ⟨true, false, ⟨[("c", ⟨.int 0, .int 0⟩)], by decide⟩, .empty, 0, ""⟩
  accounts := {
    clients := ⟨[("c", ⟨"o", 0⟩)], by decide⟩
    periods := ⟨[("o", 1)], by decide⟩
    managed := ⟨[("c", ⟨0, 0, false, 0⟩)], by decide⟩
    usage := none
    trafficLedger := .empty
    audit := [] }
  phase := .idle
  traffic := (0, 0)
  seen := .zero
  zeroed := .zero
  charged := 0
  inserted := []
  justCharged := none

theorem freshWorld_start : Start "c" freshWorld := by
  refine ⟨?_, ?_, ?_, ⟨⟨"o", 0⟩, ?_⟩, ⟨⟨0, 0, false, 0⟩, ?_, rfl, rfl⟩, ?_, rfl, ?_⟩ <;>
    decide +kernel

/-- The world after the core process ended, a new one was started and the client moved
some bytes. -/
def World.restarted (w : World) (up down : ℕ) : World :=
  { w with
    engine := (Usage.spawn .ready { w.engine with running := false }).2
    traffic := (0 + up, 0 + down)
    seen := w.seen.restart
    justCharged := none }

/-- The world after a sample of the client. -/
def World.collected (w : World) (up down : ℤ) : World :=
  w.sampled "c" (collectStats true false 0 (sampleAnswer up down) true w.engine).2
    (w.engine.accepted true 0 (sampleAnswer up down) true)

section Examples

variable {digest : String → String} {w : World}

theorem restarted_run (w : World) (up down : ℕ) (hwhole : w.phase ≠ .abandoned) :
    Run (Guarded (World.WholeStep digest "c") (World.Fits "c")) w
      [.exit, .spawn .ready, .move up down] (w.restarted up down) := by
  have hexit : Run (Guarded (World.WholeStep digest "c") (World.Fits "c")) w [.exit] _ :=
    Run.single ⟨⟨.exit w, hwhole⟩, trivial⟩
  have hspawn := hexit.snoc ⟨⟨.spawn _ .ready rfl (by decide), hwhole⟩, trivial⟩
  exact hspawn.snoc ⟨⟨.move _ up down rfl, hwhole⟩, trivial⟩

theorem collected_step {x y : ℤ} (hwhole : w.phase ≠ .abandoned)
    (hreports : Reports "c" w.traffic (sampleAnswer x y)) :
    World.WholeStep digest "c" w (.collect true false 0 (sampleAnswer x y) true)
      (w.collected x y) :=
  ⟨.collect w true false 0 _ true hreports, hwhole⟩

end Examples

/-- A started core, five and three bytes, a sample and a charge. -/
theorem local_metering_charged : ∃ w events,
    Run (Guarded (World.WholeStep id "c") (World.Fits "c")) freshWorld events w ∧
      w.accounts.billed "c" = 8 ∧ Exact "c" w := by
  have hmoved : Run (Guarded (World.WholeStep id "c") (World.Fits "c")) freshWorld _ _ :=
    restarted_run freshWorld 5 3 (by decide)
  have hcollected := hmoved.snoc ⟨collected_step (by decide)
    (show Reports "c" _ (sampleAnswer 5 3) by decide +kernel), by decide +kernel⟩
  have hcharged := hcollected.snoc ⟨⟨.charge _ ⟨.int 5, .int 3⟩ ⟨0, 0, false, 0⟩ (by decide +kernel)
    (by decide +kernel) (by decide +kernel), by decide +kernel⟩, trivial⟩
  exact ⟨_, _, hcharged, by decide +kernel, local_metering freshWorld_start hcharged⟩

/-- The uploaded bytes reach the largest integer, the core is started again, and three
more are counted: SQLite rounds the sum, and two bytes are lost. -/
theorem overflowing_run : ∃ w events, Start "c" freshWorld ∧
    Run (World.WholeStep id "c") freshWorld events w ∧ ¬Exact "c" w := by
  have hmoved : Run (World.WholeStep id "c") freshWorld _ _ :=
    (restarted_run freshWorld 9223372036854775807 0 (by decide)).of_guarded
  have hfull := hmoved.snoc (collected_step (by decide)
    (show Reports "c" _ (sampleAnswer 9223372036854775807 0) by decide +kernel))
  have hagain := hfull.append (restarted_run _ 3 0 (by decide +kernel)).of_guarded
  have hover := hagain.snoc (collected_step (by decide +kernel)
    (show Reports "c" _ (sampleAnswer 3 0) by decide +kernel))
  refine ⟨_, _, freshWorld_start, hover, fun hexact => ?_⟩
  obtain ⟨c, hc, hsum⟩ := hexact.counters
  have hrow : c = ⟨.real 9223372036854775808, .int 0⟩ := by
    refine Option.some.inj (hc.symm.trans ?_)
    decide +kernel
  subst hrow
  revert hsum
  decide +kernel

end Usage
end DarkXray
