import DarkXray.Library.Calendar
import DarkXray.Library.Checks
import DarkXray.Library.Tables
import DarkXray.Policy.Basics

/-!
# Cycles of traffic resets

A client may have its traffic reset on a schedule: every hour, day or week, every number of days,
or on a day of every month in the time zone of the panel.  One row per client keeps the next
deadline, and how many resets were completed.

Main results:

- Theorem {lit}`monthlyNextAt_spec`: the search for the next day of the month finds it.
- Theorem {lit}`completeCycle_due`: what a completed reset does to a row that is due.
- Theorem {lit}`scheduleClient_spec`: what scheduling does to the row of one client.
- Theorem {lit}`scheduleCycles_at`: scheduling treats every client by itself.
-/

namespace DarkXray
namespace Policy

open Library Library.Calendar

/-! ## Schedules -/

/-- Modes of a schedule; {lit}`other` is a text that no period belongs to. -/
inductive ResetMode where
  | never
  | hourly
  | daily
  | weekly
  | monthly
  | interval
  | other (name : String)
deriving DecidableEq, Repr

/-- The mode that a text names. -/
def ResetMode.ofString (name : String) : ResetMode :=
  if name = "never" then .never
  else if name = "hourly" then .hourly
  else if name = "daily" then .daily
  else if name = "weekly" then .weekly
  else if name = "monthly" then .monthly
  else if name = "interval" then .interval
  else .other name

/-- The traffic reset settings in {lit}`desired`; each may be absent. -/
structure ResetSettings where
  resetTraffic : Option String
  reset : Option ℤ
  resetTrafficDay : Option ℤ
  resetCount : Option ℤ
deriving DecidableEq

/-- A schedule: {lit}`days` belongs to intervals, {lit}`resetDay` to the other modes. -/
structure ScheduleSpec where
  mode : ResetMode
  days : ℤ
  resetDay : ℤ
deriving DecidableEq

/-- {lit}`Manager._schedule_spec`. -/
def scheduleSpec (desired : ResetSettings) : Option ScheduleSpec :=
  let mode := ResetMode.ofString ((desired.resetTraffic.filter (· ≠ "")).getD "never")
  let days := desired.reset.getD 0
  let day := desired.resetTrafficDay.getD 0
  if mode = .never then
    if days ≠ 0 then some ⟨.interval, days, 0⟩ else none
  else some ⟨mode, 0, day⟩

/-- {lit}`Manager._period_seconds`. -/
def periodSeconds (mode : ResetMode) (days : ℤ) : ℤ :=
  match mode with
  | .hourly => 3600
  | .daily => 86400
  | .weekly => 604800
  | .interval => days * 86400
  | .never => 0
  | .monthly => 0
  | .other _ => 0

/-- The loop of {lit}`Manager._monthly_next_at` over the months from a given one. -/
def monthlyFrom (offset day : ℤ) (now : ℚ) : ℕ → ℤ → ℤ → Except Failure ℚ
  | 0, _, _ => .error (.policyError "Could not calculate next monthly traffic reset")
  | fuel + 1, year, month =>
      let last := monthLength year month
      let target := min (max 1 day) last
      let candidate := midnight offset year month target
      if now < candidate then .ok candidate
      else if month + 1 > 12 then monthlyFrom offset day now fuel (year + 1) 1
      else monthlyFrom offset day now fuel year (month + 1)

/-- {lit}`Manager._monthly_next_at` in a time zone with a fixed offset, in seconds. -/
def monthlyNextAt (offset day : ℤ) (now : ℚ) : Except Failure ℚ :=
  let current := civilMonth (localDay offset now)
  monthlyFrom offset day now 14 current.1 current.2

/-- {lit}`Manager._initial_cycle_at`. -/
def initialCycleAt (offset : ℤ) (spec : ScheduleSpec) (now : ℚ) : Except Failure ℚ :=
  if spec.mode = .monthly then monthlyNextAt offset spec.resetDay now
  else if periodSeconds spec.mode spec.days ≤ 0 then
    .error (.policyError "Invalid traffic reset schedule")
  else .ok (now + periodSeconds spec.mode spec.days)

/-! ## Tables -/

/-- A row of {lit}`client_cycles`. -/
structure Cycle where
  days : ℤ
  nextAt : ℚ
  completed : ℤ
  maxResets : ℤ
  mode : ResetMode
  resetDay : ℤ
deriving DecidableEq

/-- The schedule that a row was written for. -/
def Cycle.spec (c : Cycle) : ScheduleSpec :=
  ⟨c.mode, c.days, c.resetDay⟩

/-- Operations that wait for a client. -/
inductive PendingOp where
  | none
  | upsert
  | delete
  | reset
deriving DecidableEq, Repr

/-- States of a managed client. -/
inductive ManagedState where
  | applied
  | pending
  | resetInflight
  | uncertain
  | conflict
  | error
  | missing
  | deleted
deriving DecidableEq, Repr

/-- The columns of {lit}`managed_clients` that scheduling reads and writes. -/
structure ManagedMeta where
  desired : ResetSettings
  op : PendingOp
  opId : String
  state : ManagedState
  retryAt : ℚ
  attempts : ℤ
  error : String
deriving DecidableEq

/-- The two tables. -/
structure CycleDb where
  managed : Table String ManagedMeta
  cycles : Table String Cycle

/-- The rows of one client. -/
def CycleDb.client (email : String) (db : CycleDb) : Option ManagedMeta × Option Cycle :=
  (db.managed.get? email, db.cycles.get? email)

/-! ## Scheduling -/

/-- The row of a schedule that starts. -/
def ScheduleSpec.start (spec : ScheduleSpec) (cap : ℤ) (nextAt : ℚ) : Cycle :=
  ⟨spec.days, nextAt, 0, cap, spec.mode, spec.resetDay⟩

/-- Write the row of a schedule that is new or has changed. -/
def restartCycle (offset : ℤ) (now : ℚ) (spec : ScheduleSpec) (cap : ℤ) (email : String)
    (db : CycleDb) : Except Failure CycleDb := do
  let nextAt ← initialCycleAt offset spec now
  let row := spec.start cap nextAt
  return { db with cycles := db.cycles.upsert email row fun _ => row }

/-- A client that waits for a reset. -/
def ManagedMeta.awaitReset (opId : String) (m : ManagedMeta) : ManagedMeta :=
  { m with op := .reset, opId := opId, state := .pending, retryAt := 0, attempts := 0,
           error := "" }

/-- Ask for a reset. -/
def requestReset (opId email : String) (db : CycleDb) : CycleDb :=
  { db with managed := db.managed.update email (ManagedMeta.awaitReset opId) }

/-- Write the greatest number of resets. -/
def setMaxResets (cap : ℤ) (email : String) (db : CycleDb) : CycleDb :=
  { db with cycles := db.cycles.update email fun c => { c with maxResets := cap } }

/-- Go on with a row that belongs to the schedule. -/
def continueCycle (now : ℚ) (cap : ℤ) (opId email : String) (m : ManagedMeta) (row : Cycle)
    (db : CycleDb) : CycleDb :=
  let db := setMaxResets cap email db
  if cap ≠ 0 ∧ cap ≤ row.completed then db
  else if row.nextAt ≤ now ∧ m.op = .none ∧ m.state = .applied then requestReset opId email db
  else db

/-- The body of the loop of {lit}`Manager._schedule_cycles`. -/
def scheduleClient (offset : ℤ) (now : ℚ) (opId email : String) (m : ManagedMeta)
    (db : CycleDb) : Except Failure CycleDb :=
  match scheduleSpec m.desired with
  | none => .ok { db with cycles := db.cycles.erase email }
  | some spec =>
      let cap := m.desired.resetCount.getD 0
      match db.cycles.get? email with
      | none => restartCycle offset now spec cap email db
      | some row =>
          if row.spec ≠ spec then restartCycle offset now spec cap email db
          else .ok (continueCycle now cap opId email m row db)

/-- The clients that a call of {lit}`Manager._schedule_cycles` is for. -/
def selectedClients (emails : Option (List String)) (db : CycleDb) : List (String × ManagedMeta) :=
  db.managed.rows.filter fun r =>
    decide (r.2.state ≠ .deleted) && (emails.all fun es => decide (r.1 ∈ es))

/-- {lit}`Manager._schedule_cycles`; {lit}`tokens` are the fresh operation identifiers. -/
def scheduleCycles (offset : ℤ) (now : ℚ) (tokens : String → String)
    (emails : Option (List String)) (db : CycleDb) : Except Failure CycleDb :=
  if emails = some [] then .ok db
  else (selectedClients emails db).foldlM
    (fun db r => scheduleClient offset now (tokens r.1) r.1 r.2 db) db

/-! ## Completing -/

/-- The deadline after a completed reset. -/
def Cycle.following (offset : ℤ) (now : ℚ) (c : Cycle) : Except Failure ℚ :=
  if c.mode = .monthly then monthlyNextAt offset c.resetDay now
  else if periodSeconds c.mode c.days ≤ 0 then
    .error (.policyError "Invalid persisted traffic reset schedule")
  else .ok (nextDeadline c.nextAt (periodSeconds c.mode c.days) now)

/-- {lit}`Manager._complete_cycle`. -/
def completeCycle (offset : ℤ) (now : ℚ) (email : String) (db : CycleDb) :
    Except Failure CycleDb :=
  match db.cycles.get? email with
  | none => .ok db
  | some row =>
      if row.nextAt ≤ now then do
        let nextAt ← row.following offset now
        return { db with cycles := db.cycles.update email fun c =>
          { c with nextAt := nextAt, completed := c.completed + 1 } }
      else .ok db

/-! ## Deadlines -/

/-- The schedule has deadlines. -/
def ScheduleSpec.Valid (spec : ScheduleSpec) : Prop :=
  spec.mode = .monthly ∨ 0 < periodSeconds spec.mode spec.days

/-- The deadline of a row after a reset that was completed at {lit}`now`. -/
structure NextDue (offset : ℤ) (row : Cycle) (now next : ℚ) : Prop where
  future : now < next
  monthly : row.mode = .monthly →
    IsLeast {t ∈ monthly offset (max 1 row.resetDay) | now < t} next
  period : row.mode ≠ .monthly → next ≤ now + periodSeconds row.mode row.days ∧
    ∃ k : ℕ, 0 < k ∧ next = row.nextAt + k * periodSeconds row.mode row.days

/-- What the search returns is the next midnight of the day, if it starts early enough. -/
theorem monthlyFrom_sound {offset day : ℤ} {now next : ℚ} (fuel : ℕ) :
    ∀ {y m : ℤ}, 1 ≤ m ∧ m ≤ 12 → MonthsOver offset (max 1 day) now y m →
      monthlyFrom offset day now fuel y m = .ok next →
        IsLeast {t ∈ monthly offset (max 1 day) | now < t} next := by
  induction fuel with
  | zero =>
      intro y m _ _ h
      cases h
  | succ fuel ih =>
      intro y m hm hover h
      unfold monthlyFrom at h
      dsimp only at h
      split_ifs at h with hnow hwrap
      · simp only [Except.ok.injEq] at h
        rw [← h]
        exact hover.isLeast (le_max_left 1 day) hm hnow
      · exact ih (by omega) (hover.step hm (by omega) (not_lt.mp hnow)) h
      · exact ih (by omega) (hover.step hm (by omega) (not_lt.mp hnow)) h

/-- The search does not go beyond the month after that of {lit}`now`. -/
theorem monthlyFrom_returns (offset day : ℤ) (now : ℚ) (fuel : ℕ) {y m : ℤ} (hm : 1 ≤ m ∧ m ≤ 12)
    (hnext : 12 * (civilMonth (localDay offset now)).1 + (civilMonth (localDay offset now)).2 <
      12 * y + m) : ∃ next, monthlyFrom offset day now (fuel + 1) y m = .ok next := by
  have hlen := one_le_monthLength y m
  have hlt := lt_midnight_of_next offset now hm hnext
    (d := min (max 1 day) (monthLength y m)) (by omega)
  exact ⟨midnight offset y m (min (max 1 day) (monthLength y m)), if_pos hlt⟩

/-- The search for the next day of the month finds it. -/
theorem monthlyNextAt_spec (offset day : ℤ) (now : ℚ) :
    ∃ next, monthlyNextAt offset day now = .ok next ∧
      IsLeast {t ∈ monthly offset (max 1 day) | now < t} next := by
  obtain ⟨hm, _⟩ := civilMonth_spec (localDay offset now)
  have hover := monthsOver_civilMonth offset (max 1 day) now
  have hreturns : ∃ next, monthlyNextAt offset day now = .ok next := by
    unfold monthlyNextAt monthlyFrom
    dsimp only
    split_ifs
    · exact ⟨_, rfl⟩
    · exact monthlyFrom_returns offset day now 12 (by omega) (by omega)
    · exact monthlyFrom_returns offset day now 12 (by omega) (by omega)
  obtain ⟨next, hnext⟩ := hreturns
  exact ⟨next, hnext, monthlyFrom_sound 14 hm hover hnext⟩

/-- A valid schedule gets a first deadline. -/
theorem initialCycleAt_returns {spec : ScheduleSpec} (h : spec.Valid) (offset : ℤ) (now : ℚ) :
    ∃ next, initialCycleAt offset spec now = .ok next := by
  unfold initialCycleAt
  by_cases hmonthly : spec.mode = .monthly
  · rw [if_pos hmonthly]
    obtain ⟨next, hnext, _⟩ := monthlyNextAt_spec offset spec.resetDay now
    exact ⟨next, hnext⟩
  · have hperiod := h.resolve_left hmonthly
    rw [if_neg hmonthly, if_neg (not_le.mpr hperiod)]
    exact ⟨_, rfl⟩

/-- A first deadline lies in the future, and only valid schedules get one. -/
theorem initialCycleAt_spec {offset : ℤ} {spec : ScheduleSpec} {now next : ℚ}
    (h : initialCycleAt offset spec now = .ok next) : spec.Valid ∧ now < next := by
  unfold initialCycleAt at h
  split_ifs at h with hmonthly hperiod
  · obtain ⟨next', hnext', hleast⟩ := monthlyNextAt_spec offset spec.resetDay now
    have heq : next' = next := by
      rw [h] at hnext'
      exact (Except.ok.inj hnext').symm
    rw [← heq]
    exact ⟨Or.inl hmonthly, hleast.1.2⟩
  · rw [Except.ok.injEq] at h
    have hpos : (0 : ℚ) < periodSeconds spec.mode spec.days := by
      exact_mod_cast not_le.mp hperiod
    constructor
    · exact Or.inr (not_le.mp hperiod)
    · linarith

/-- The deadline after a completed reset of a row that was due. -/
theorem Cycle.following_spec {row : Cycle} (hvalid : row.spec.Valid) (offset : ℤ) {now : ℚ}
    (hdue : row.nextAt ≤ now) :
    ∃ next, row.following offset now = .ok next ∧ NextDue offset row now next := by
  unfold Cycle.following
  by_cases hmonthly : row.mode = .monthly
  · rw [if_pos hmonthly]
    obtain ⟨next, hnext, hleast⟩ := monthlyNextAt_spec offset row.resetDay now
    refine ⟨next, hnext, ?_⟩
    constructor
    · exact hleast.1.2
    · exact fun _ => hleast
    · exact fun h => absurd hmonthly h
  · have hperiod : 0 < periodSeconds row.mode row.days := hvalid.resolve_left hmonthly
    rw [if_neg hmonthly, if_neg (not_le.mpr hperiod)]
    obtain ⟨hfuture, hwithin, hsteps⟩ := nextDeadline_spec hperiod hdue
    refine ⟨_, rfl, ?_⟩
    constructor
    · exact hfuture
    · exact fun h => absurd h hmonthly
    · exact fun _ => ⟨hwithin, hsteps⟩

/-! ## What a completed reset does -/

/-- A completed reset counts once and moves the deadline of a row that is due. -/
theorem completeCycle_due {offset : ℤ} {now : ℚ} {email : String} {db : CycleDb} {row : Cycle}
    (hrow : db.cycles.get? email = some row) (hvalid : row.spec.Valid) (hdue : row.nextAt ≤ now) :
    ∃ next, NextDue offset row now next ∧
      completeCycle offset now email db =
        .ok { db with cycles := db.cycles.update email fun c =>
          { c with nextAt := next, completed := c.completed + 1 } } := by
  obtain ⟨next, hnext, hspec⟩ := Cycle.following_spec hvalid offset hdue
  refine ⟨next, hspec, ?_⟩
  unfold completeCycle
  rw [hrow]
  dsimp only
  rw [if_pos hdue, hnext]
  rfl

/-- A completed reset of a row that is not due changes nothing. -/
theorem completeCycle_early {offset : ℤ} {now : ℚ} {email : String} {db : CycleDb}
    (h : ∀ row, db.cycles.get? email = some row → now < row.nextAt) :
    completeCycle offset now email db = .ok db := by
  unfold completeCycle
  cases hrow : db.cycles.get? email with
  | none => rfl
  | some row => exact if_neg (not_le.mpr (h row hrow))

/-! ## What scheduling does -/

/-- The greatest number of resets of a client, where 0 means any number. -/
def ManagedMeta.resetCount (m : ManagedMeta) : ℤ :=
  m.desired.resetCount.getD 0

/-- A reset of the client is due: its row belongs to its schedule, the deadline has come, resets
are left, and no other operation on the client waits. -/
structure ResetDue (now : ℚ) (m : ManagedMeta) (row : Cycle) : Prop where
  spec : scheduleSpec m.desired = some row.spec
  deadline : row.nextAt ≤ now
  left : m.resetCount = 0 ∨ row.completed < m.resetCount
  idle : m.op = .none
  applied : m.state = .applied

/-- A reset of the client waits to be carried out; its settings are what they were. -/
structure ManagedMeta.Awaits (opId : String) (m m' : ManagedMeta) : Prop where
  op : m'.op = .reset
  opId : m'.opId = opId
  state : m'.state = .pending
  desired : m'.desired = m.desired

theorem ManagedMeta.awaits_awaitReset (opId : String) (m : ManagedMeta) :
    m.Awaits opId (m.awaitReset opId) :=
  ⟨rfl, rfl, rfl, rfl⟩

/-- What scheduling may make of the rows of one client. -/
inductive Scheduled (now : ℚ) (opId : String) (m : ManagedMeta) (c : Option Cycle) :
    Option ManagedMeta × Option Cycle → Prop
  | unscheduled : scheduleSpec m.desired = none → Scheduled now opId m c (some m, none)
  | restarted (spec : ScheduleSpec) (next : ℚ) : scheduleSpec m.desired = some spec →
      (∀ old, c = some old → old.spec ≠ spec) → spec.Valid → now < next →
      Scheduled now opId m c (some m, some (spec.start m.resetCount next))
  | waiting (row : Cycle) : c = some row → scheduleSpec m.desired = some row.spec →
      ¬ResetDue now m row →
      Scheduled now opId m c (some m, some { row with maxResets := m.resetCount })
  | requested (row : Cycle) : c = some row → ResetDue now m row →
      Scheduled now opId m c
        (some (m.awaitReset opId), some { row with maxResets := m.resetCount })

@[simp]
theorem client_setMaxResets (cap : ℤ) (email email' : String) (db : CycleDb) :
    (setMaxResets cap email db).client email' =
      (db.managed.get? email', if email' = email then
        (db.cycles.get? email').map fun c => { c with maxResets := cap }
      else db.cycles.get? email') := by
  simp [CycleDb.client, setMaxResets]

@[simp]
theorem client_requestReset (opId email email' : String) (db : CycleDb) :
    (requestReset opId email db).client email' =
      (if email' = email then (db.managed.get? email').map (ManagedMeta.awaitReset opId)
        else db.managed.get? email', db.cycles.get? email') := by
  simp [CycleDb.client, requestReset]

/-- A schedule that starts is valid, and its first deadline lies in the future. -/
theorem restartCycle_ok {offset : ℤ} {now : ℚ} {spec : ScheduleSpec} {cap : ℤ} {email : String}
    {db db' : CycleDb} (h : restartCycle offset now spec cap email db = .ok db') :
    ∃ next, spec.Valid ∧ now < next ∧
      ∀ email', db'.client email' = (db.managed.get? email',
        if email' = email then some (spec.start cap next) else db.cycles.get? email') := by
  unfold restartCycle at h
  rw [except_bind_ok_iff] at h
  obtain ⟨next, hnext, h⟩ := h
  obtain ⟨hvalid, hfuture⟩ := initialCycleAt_spec hnext
  rw [except_pure_ok_iff] at h
  refine ⟨next, hvalid, hfuture, ?_⟩
  intro email'
  rw [h]
  unfold CycleDb.client
  dsimp only
  rw [Table.get?_upsert]
  by_cases hsame : email' = email
  · rw [if_pos hsame, if_pos hsame]
    cases db.cycles.get? email <;> rfl
  · rw [if_neg hsame, if_neg hsame]

/-- Going on with a row that belongs to the schedule. -/
theorem continueCycle_spec {now : ℚ} {opId email : String} {m : ManagedMeta} {row : Cycle}
    {db : CycleDb} (hm : db.managed.get? email = some m) (hrow : db.cycles.get? email = some row)
    (hspec : scheduleSpec m.desired = some row.spec) :
    Scheduled now opId m (some row)
      ((continueCycle now (m.desired.resetCount.getD 0) opId email m row db).client email) := by
  have hwait : (setMaxResets (m.desired.resetCount.getD 0) email db).client email =
      (some m, some { row with maxResets := m.resetCount }) := by
    simp [hm, hrow, ManagedMeta.resetCount]
  unfold continueCycle
  dsimp only
  by_cases hcap : m.desired.resetCount.getD 0 ≠ 0 ∧ m.desired.resetCount.getD 0 ≤ row.completed
  · rw [if_pos hcap, hwait]
    refine Scheduled.waiting row rfl hspec fun hreset => ?_
    rcases hreset.left with hany | hleft
    · exact hcap.1 hany
    · exact not_le.mpr hleft hcap.2
  · rw [if_neg hcap]
    by_cases hdue : row.nextAt ≤ now ∧ m.op = .none ∧ m.state = .applied
    · have hrequest : (requestReset opId email
          (setMaxResets (m.desired.resetCount.getD 0) email db)).client email =
          (some (m.awaitReset opId), some { row with maxResets := m.resetCount }) := by
        rw [client_requestReset, if_pos rfl]
        unfold CycleDb.client at hwait
        rw [Prod.mk.injEq] at hwait
        rw [hwait.1, hwait.2]
        rfl
      have hleft : m.resetCount = 0 ∨ row.completed < m.resetCount := by
        by_cases hany : m.resetCount = 0
        · exact Or.inl hany
        · exact Or.inr (not_le.mp fun hused => hcap ⟨hany, hused⟩)
      rw [if_pos hdue, hrequest]
      exact Scheduled.requested row rfl ⟨hspec, hdue.1, hleft, hdue.2.1, hdue.2.2⟩
    · rw [if_neg hdue, hwait]
      exact Scheduled.waiting row rfl hspec fun hreset =>
        hdue ⟨hreset.deadline, hreset.idle, hreset.applied⟩

/-- Scheduling one client. -/
theorem scheduleClient_spec {offset : ℤ} {now : ℚ} {opId email : String} {m : ManagedMeta}
    {db db' : CycleDb} (hm : db.managed.get? email = some m)
    (h : scheduleClient offset now opId email m db = .ok db') :
    Scheduled now opId m (db.cycles.get? email) (db'.client email) := by
  unfold scheduleClient at h
  cases hspec : scheduleSpec m.desired with
  | none =>
      rw [hspec] at h
      simp only [Except.ok.injEq] at h
      rw [← h]
      have hclient : CycleDb.client email { db with cycles := db.cycles.erase email } =
          (some m, none) := by
        simp [CycleDb.client, hm]
      rw [hclient]
      exact Scheduled.unscheduled hspec
  | some spec =>
      rw [hspec] at h
      have hrestart : (∀ old, db.cycles.get? email = some old → old.spec ≠ spec) →
          restartCycle offset now spec (m.desired.resetCount.getD 0) email db = .ok db' →
          Scheduled now opId m (db.cycles.get? email) (db'.client email) := by
        intro hchanged hr
        obtain ⟨next, hvalid, hfuture, hclient⟩ := restartCycle_ok hr
        rw [hclient email, if_pos rfl, hm]
        exact Scheduled.restarted spec next hspec hchanged hvalid hfuture
      cases hrow : db.cycles.get? email with
      | none =>
          simp only [hrow] at h hrestart
          exact hrestart (by intro old hold; cases hold) h
      | some row =>
          simp only [hrow] at h hrestart
          by_cases hchanged : row.spec ≠ spec
          · rw [if_pos hchanged] at h
            exact hrestart (by intro old hold; cases hold; exact hchanged) h
          · rw [if_neg hchanged, Except.ok.injEq] at h
            rw [not_ne_iff] at hchanged
            rw [← hchanged] at hspec
            rw [← h]
            exact continueCycle_spec hm hrow hspec

/-- Scheduling one client leaves the rows of the others alone. -/
theorem scheduleClient_frame {offset : ℤ} {now : ℚ} {opId email : String} {m : ManagedMeta}
    {db db' : CycleDb} (h : scheduleClient offset now opId email m db = .ok db') {email' : String}
    (hne : email' ≠ email) : db'.client email' = db.client email' := by
  unfold scheduleClient at h
  cases hspec : scheduleSpec m.desired with
  | none =>
      simp only [hspec, Except.ok.injEq] at h
      rw [← h]
      simp [CycleDb.client, hne]
  | some spec =>
      rw [hspec] at h
      have hrestart : restartCycle offset now spec (m.desired.resetCount.getD 0) email db =
          .ok db' → db'.client email' = db.client email' := by
        intro hr
        obtain ⟨next, _, _, hclient⟩ := restartCycle_ok hr
        rw [hclient email', if_neg hne]
        rfl
      cases hrow : db.cycles.get? email with
      | none =>
          simp only [hrow] at h
          exact hrestart h
      | some row =>
          simp only [hrow] at h
          by_cases hchanged : row.spec ≠ spec
          · rw [if_pos hchanged] at h
            exact hrestart h
          · rw [if_neg hchanged, Except.ok.injEq] at h
            have hset : (setMaxResets (m.desired.resetCount.getD 0) email db).client email' =
                db.client email' := by
              rw [client_setMaxResets, if_neg hne]
              rfl
            rw [← h]
            unfold continueCycle
            dsimp only
            split_ifs
            · exact hset
            · rw [client_requestReset, if_neg hne]
              exact hset
            · exact hset

/-- Scheduling one client succeeds if its schedule is valid. -/
theorem scheduleClient_returns {offset : ℤ} {now : ℚ} {opId email : String} {m : ManagedMeta}
    (hvalid : ∀ spec, scheduleSpec m.desired = some spec → spec.Valid) (db : CycleDb) :
    ∃ db', scheduleClient offset now opId email m db = .ok db' := by
  unfold scheduleClient
  cases hspec : scheduleSpec m.desired with
  | none => exact ⟨_, rfl⟩
  | some spec =>
      have hrestart : ∃ db', restartCycle offset now spec (m.desired.resetCount.getD 0) email db =
          .ok db' := by
        obtain ⟨next, hnext⟩ := initialCycleAt_returns (hvalid spec hspec) offset now
        unfold restartCycle
        rw [hnext]
        exact ⟨_, rfl⟩
      cases hrow : db.cycles.get? email with
      | none => exact hrestart
      | some row =>
          dsimp only
          split_ifs
          · exact hrestart
          · exact ⟨_, rfl⟩

/-- The clients that a call is for are different ones. -/
theorem selectedClients_nodup (emails : Option (List String)) (db : CycleDb) :
    ((selectedClients emails db).map Prod.fst).Nodup := by
  exact (List.filter_sublist.map Prod.fst).nodup db.managed.nodupKeys

theorem mem_selectedClients {emails : Option (List String)} {db : CycleDb} {email : String}
    {m : ManagedMeta} : (email, m) ∈ selectedClients emails db ↔
      db.managed.get? email = some m ∧ m.state ≠ .deleted ∧ ∀ es, emails = some es → email ∈ es := by
  unfold selectedClients
  rw [List.mem_filter, Table.get?_eq_some_iff]
  cases emails with
  | none => simp
  | some es => simp

/-- Scheduling treats every client by itself. -/
theorem scheduleCycles_at {offset : ℤ} {now : ℚ} {tokens : String → String}
    {emails : Option (List String)} {db db' : CycleDb}
    (h : scheduleCycles offset now tokens emails db = .ok db') {email : String} {m : ManagedMeta}
    (hm : db.managed.get? email = some m) (hlive : m.state ≠ .deleted)
    (hfor : ∀ es, emails = some es → email ∈ es) :
    Scheduled now (tokens email) m (db.cycles.get? email) (db'.client email) := by
  unfold scheduleCycles at h
  rw [if_neg (by rintro rfl; simpa using hfor [] rfl)] at h
  have hmem : (email, m) ∈ selectedClients emails db :=
    mem_selectedClients.mpr ⟨hm, hlive, hfor⟩
  obtain ⟨u, v, hu, huv, hv⟩ := except_foldlM_at Prod.fst CycleDb.client
    (fun _ _ _ hstep _ hk => scheduleClient_frame hstep hk) h (selectedClients_nodup emails db) hmem
  unfold CycleDb.client at hu
  rw [Prod.mk.injEq] at hu
  have hspec := scheduleClient_spec (hu.1.trans hm) huv
  rw [hu.2] at hspec
  rw [hv]
  exact hspec

/-- Scheduling leaves the clients alone that a call is not for. -/
theorem scheduleCycles_frame {offset : ℤ} {now : ℚ} {tokens : String → String}
    {emails : Option (List String)} {db db' : CycleDb}
    (h : scheduleCycles offset now tokens emails db = .ok db') {email : String}
    (hnot : ∀ m, (email, m) ∉ selectedClients emails db) : db'.client email = db.client email := by
  unfold scheduleCycles at h
  split_ifs at h with hnone
  · rw [Except.ok.inj h]
  · apply except_foldlM_frame Prod.fst CycleDb.client
      (fun _ _ _ hstep _ hk => scheduleClient_frame hstep hk) h
    rintro ⟨email', m⟩ hmem rfl
    exact hnot m hmem

/-- Scheduling succeeds if all schedules are valid. -/
theorem scheduleCycles_returns {offset : ℤ} {now : ℚ} {tokens : String → String}
    {emails : Option (List String)} {db : CycleDb}
    (hvalid : ∀ email m, (email, m) ∈ selectedClients emails db →
      ∀ spec, scheduleSpec m.desired = some spec → spec.Valid) :
    ∃ db', scheduleCycles offset now tokens emails db = .ok db' := by
  unfold scheduleCycles
  split_ifs
  · exact ⟨db, rfl⟩
  · apply except_foldlM_total
    rintro s ⟨email, m⟩ hmem
    exact scheduleClient_returns (hvalid email m hmem) s

end Policy
end DarkXray
