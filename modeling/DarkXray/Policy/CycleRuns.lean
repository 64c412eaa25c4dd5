import DarkXray.Library.Runs
import DarkXray.Policy.Cycles

/-!
# Runs of traffic reset cycles

Scheduling, completed resets and all other writes to the clients happen in any order, at times
that do not decrease.  A completed reset may have been asked for by the schedule or by hand, or
may have been uncertain and then resolved.

Main results:

- Theorem {lit}`CyclesValid.step`: only valid schedules have a row.
- Theorem {lit}`Progress.step`: while a schedule stays the same, its row loses no reset and its
  deadline does not drift.
- Theorem {lit}`scheduled_resets`: scheduled resets fire once per period that is due.
-/

namespace DarkXray
namespace Policy

open Library Library.Calendar

/-! ## The system -/

/-- The offset of the panel's time zone; a zone that is not known counts as universal time. -/
def panelOffset (zones : String → Option ℤ) (timezone : Option String) : ℤ :=
  (zones (timezone.getD "UTC")).getD 0

/-- The tables, the time zone of the panel, and the time. -/
structure CycleState where
  db : CycleDb
  timezone : Option String
  clock : ℚ

/-- A row is due. -/
def CycleDb.due (email : String) (now : ℚ) (db : CycleDb) : Bool :=
  (db.cycles.get? email).any fun row => decide (row.nextAt ≤ now)

/-- What happens to the tables; {lit}`write` stands for all other operations on clients. -/
inductive CycleEvent where
  | schedule (emails : Option (List String)) (now : ℚ) (tokens : String → String)
  | complete (email : String) (now : ℚ) (due : Bool)
  | write (email : String) (row : Option ManagedMeta)
  | forget (email : String)
  | setTimezone (timezone : Option String)

/-- Write or remove the row of a client. -/
def CycleDb.write (email : String) (row : Option ManagedMeta) (db : CycleDb) : CycleDb :=
  match row with
  | none => { db with managed := db.managed.erase email }
  | some m => { db with managed := db.managed.upsert email m fun _ => m }

/-- The state after a transaction, whose tables are the old ones if it was rolled back. -/
def CycleState.commit (s : CycleState) (now : ℚ) (result : Except Failure CycleDb) : CycleState :=
  match result with
  | .ok db => { s with clock := now, db := db }
  | .error _ => { s with clock := now }

/-- One event. -/
def cycleStep (zones : String → Option ℤ) (s : CycleState) (e : CycleEvent) (t : CycleState) :
    Prop :=
  match e with
  | .schedule emails now tokens =>
      s.clock ≤ now ∧ t = s.commit now
        (scheduleCycles (panelOffset zones s.timezone) now tokens emails s.db)
  | .complete email now due =>
      s.clock ≤ now ∧ due = s.db.due email now ∧ t = s.commit now
        (completeCycle (panelOffset zones s.timezone) now email s.db)
  | .write email row => t = { s with db := s.db.write email row }
  | .forget email => t = { s with db := { s.db with cycles := s.db.cycles.erase email } }
  | .setTimezone timezone => t = { s with timezone := timezone }

/-! ## Only valid schedules have a row -/

/-- Every row has deadlines. -/
def CyclesValid (db : CycleDb) : Prop :=
  ∀ email row, db.cycles.get? email = some row → row.spec.Valid

/-- A scheduled row is valid. -/
theorem Scheduled.valid {now : ℚ} {opId : String} {m : ManagedMeta} {c : Option Cycle}
    {r : Option ManagedMeta × Option Cycle} (h : Scheduled now opId m c r)
    (hvalid : ∀ row, c = some row → row.spec.Valid) : ∀ row, r.2 = some row → row.spec.Valid := by
  intro row hrow
  cases h with
  | unscheduled hspec => cases hrow
  | restarted spec next hspec hchanged hspecValid hfuture =>
      cases hrow
      exact hspecValid
  | waiting old hold hspec hnot =>
      cases hrow
      exact hvalid old hold
  | requested old hold hdue =>
      cases hrow
      exact hvalid old hold

/-- What scheduling does to each client. -/
theorem scheduleCycles_cases {offset : ℤ} {now : ℚ} {tokens : String → String}
    {emails : Option (List String)} {db db' : CycleDb}
    (h : scheduleCycles offset now tokens emails db = .ok db') (email : String) :
    db'.client email = db.client email ∨
      ∃ m, (email, m) ∈ selectedClients emails db ∧
        Scheduled now (tokens email) m (db.cycles.get? email) (db'.client email) := by
  by_cases hsel : ∃ m, (email, m) ∈ selectedClients emails db
  · obtain ⟨m, hmem⟩ := hsel
    obtain ⟨hm, hlive, hfor⟩ := mem_selectedClients.mp hmem
    exact Or.inr ⟨m, hmem, scheduleCycles_at h hm hlive hfor⟩
  · exact Or.inl (scheduleCycles_frame h (not_exists.mp hsel))

/-- Scheduling keeps the rows valid. -/
theorem CyclesValid.schedule {offset : ℤ} {now : ℚ} {tokens : String → String}
    {emails : Option (List String)} {db db' : CycleDb} (hvalid : CyclesValid db)
    (h : scheduleCycles offset now tokens emails db = .ok db') : CyclesValid db' := by
  intro email row hrow
  rcases scheduleCycles_cases h email with hsame | ⟨m, _, hscheduled⟩
  · unfold CycleDb.client at hsame
    rw [Prod.mk.injEq] at hsame
    exact hvalid email row (hsame.2 ▸ hrow)
  · exact hscheduled.valid (hvalid email) row hrow

/-- A completed reset advances a row that is due and no other. -/
theorem completeCycle_cases (offset : ℤ) (now : ℚ) (email : String) {db : CycleDb}
    (hvalid : CyclesValid db) :
    db.due email now = false ∧ completeCycle offset now email db = .ok db ∨
      ∃ row next, db.due email now = true ∧ db.cycles.get? email = some row ∧
        row.nextAt ≤ now ∧ NextDue offset row now next ∧
          completeCycle offset now email db =
            .ok { db with cycles := db.cycles.update email fun c =>
              { c with nextAt := next, completed := c.completed + 1 } } := by
  unfold CycleDb.due
  cases hrow : db.cycles.get? email with
  | none =>
      refine Or.inl ⟨rfl, completeCycle_early ?_⟩
      intro row h
      rw [hrow] at h
      cases h
  | some row =>
      by_cases hdue : row.nextAt ≤ now
      · obtain ⟨next, hnext, hcomplete⟩ := completeCycle_due hrow (hvalid email row hrow) hdue
        exact Or.inr ⟨row, next, by simpa using hdue, rfl, hdue, hnext, hcomplete⟩
      · refine Or.inl ⟨by simpa using hdue, completeCycle_early ?_⟩
        intro row' h
        rw [hrow] at h
        cases h
        exact not_le.mp hdue

/-- A completed reset keeps the rows valid. -/
theorem CyclesValid.complete {offset : ℤ} {now : ℚ} {email : String} {db db' : CycleDb}
    (hvalid : CyclesValid db) (h : completeCycle offset now email db = .ok db') :
    CyclesValid db' := by
  rcases completeCycle_cases offset now email hvalid with
    ⟨_, hsame⟩ | ⟨row, next, _, _, _, _, hcomplete⟩
  · rw [hsame, Except.ok.injEq] at h
    rw [← h]
    exact hvalid
  · rw [hcomplete, Except.ok.injEq] at h
    rw [← h]
    intro email' row' hrow'
    dsimp only at hrow'
    rw [Table.get?_update] at hrow'
    by_cases hsame : email' = email
    · rw [if_pos hsame, Option.map_eq_some_iff] at hrow'
      obtain ⟨old, hold, rfl⟩ := hrow'
      exact hvalid _ old hold
    · rw [if_neg hsame] at hrow'
      exact hvalid email' row' hrow'

/-- Every event keeps the rows valid. -/
theorem CyclesValid.step {zones : String → Option ℤ} {s t : CycleState} {e : CycleEvent}
    (hvalid : CyclesValid s.db) (h : cycleStep zones s e t) : CyclesValid t.db := by
  cases e with
  | schedule emails now tokens =>
      obtain ⟨_, rfl⟩ := h
      cases hresult : scheduleCycles (panelOffset zones s.timezone) now tokens emails s.db with
      | error e => exact hvalid
      | ok db' => exact hvalid.schedule hresult
  | complete email now due =>
      obtain ⟨_, _, rfl⟩ := h
      cases hresult : completeCycle (panelOffset zones s.timezone) now email s.db with
      | error e => exact hvalid
      | ok db' => exact hvalid.complete hresult
  | write email row =>
      unfold cycleStep at h
      subst h
      cases row <;> exact hvalid
  | forget email =>
      unfold cycleStep at h
      subst h
      intro email' row hrow
      rw [Table.get?_erase] at hrow
      by_cases hsame : email' = email
      · rw [if_pos hsame] at hrow
        cases hrow
      · rw [if_neg hsame] at hrow
        exact hvalid email' row hrow
  | setTimezone timezone =>
      unfold cycleStep at h
      subst h
      exact hvalid

/-- In every state that a run reaches the rows are valid. -/
theorem CyclesValid.run {zones : String → Option ℤ} {s t : CycleState} {es : List CycleEvent}
    (hvalid : CyclesValid s.db) (hrun : Run (cycleStep zones) s es t) : CyclesValid t.db := by
  induction hrun with
  | nil => exact hvalid
  | snoc _ hlast ih => exact ih.step hlast

/-! ## A schedule that stays the same -/

/-- The client keeps its schedule: that is what its settings say, and its row is not removed. -/
def KeepsSchedule (email : String) (spec : ScheduleSpec) (s : CycleState) (e : CycleEvent) :
    Prop :=
  (∀ m, s.db.managed.get? email = some m → m.state ≠ .deleted →
    scheduleSpec m.desired = some spec) ∧ e ≠ .forget email

/-- The event is a completed reset of a client that was due. -/
def CycleEvent.resets (email : String) : CycleEvent → Bool
  | .complete email' _ due => decide (email' = email) && due
  | .schedule _ _ _ => false
  | .write _ _ => false
  | .forget _ => false
  | .setTimezone _ => false

/-- How a row has moved after {lit}`n` completed resets. -/
structure Progress (row row' : Cycle) (n : ℕ) : Prop where
  spec : row'.spec = row.spec
  completed : row'.completed = row.completed + n
  forward : row.nextAt ≤ row'.nextAt
  still : n = 0 → row'.nextAt = row.nextAt
  period : row.mode ≠ .monthly →
    ∃ k : ℕ, n ≤ k ∧ row'.nextAt = row.nextAt + k * periodSeconds row.mode row.days

/-- A row that stays has made no progress. -/
theorem Progress.refl (row : Cycle) : Progress row row 0 := by
  constructor
  · rfl
  · simp
  · exact le_refl _
  · exact fun _ => rfl
  · exact fun _ => ⟨0, le_refl _, by simp⟩

/-- Another number of resets at most changes a row that is not due. -/
theorem Progress.setMaxResets {row row' : Cycle} {n : ℕ} (h : Progress row row' n) (cap : ℤ) :
    Progress row { row' with maxResets := cap } n :=
  ⟨h.spec, h.completed, h.forward, h.still, h.period⟩

/-- The same schedule has the same mode, days and reset day. -/
theorem Cycle.mode_eq_of_spec {row row' : Cycle} (h : row'.spec = row.spec) :
    row'.mode = row.mode ∧ row'.days = row.days ∧ row'.resetDay = row.resetDay := by
  unfold Cycle.spec at h
  rw [ScheduleSpec.mk.injEq] at h
  exact h

/-- A completed reset of a row that is due. -/
theorem Progress.complete {offset : ℤ} {row row' : Cycle} {n : ℕ} {now next : ℚ}
    (h : Progress row row' n) (hdue : row'.nextAt ≤ now) (hnext : NextDue offset row' now next) :
    Progress row { row' with nextAt := next, completed := row'.completed + 1 } (n + 1) := by
  have hmode := Cycle.mode_eq_of_spec h.spec
  constructor
  · exact h.spec
  · have hcompleted := h.completed
    push_cast
    omega
  · have hforward := h.forward
    have hfuture := hnext.future
    dsimp only
    linarith
  · intro hzero
    omega
  · intro hmonthly
    obtain ⟨k, hk, hkeep⟩ := h.period hmonthly
    obtain ⟨_, j, hj, hmove⟩ := hnext.period (by rw [hmode.1]; exact hmonthly)
    refine ⟨k + j, by omega, ?_⟩
    dsimp only
    rw [hmove, hkeep, hmode.1, hmode.2.1]
    push_cast
    ring

/-- Scheduling goes on with the row of a schedule that stays the same. -/
theorem Scheduled.keeps {now : ℚ} {opId : String} {m : ManagedMeta} {row row' : Cycle} {n : ℕ}
    {r : Option ManagedMeta × Option Cycle} (h : Scheduled now opId m (some row') r)
    (hspec : scheduleSpec m.desired = some row.spec) (hprogress : Progress row row' n) :
    ∃ row'', r.2 = some row'' ∧ Progress row row'' n := by
  cases h with
  | unscheduled hnone =>
      rw [hspec] at hnone
      cases hnone
  | restarted spec next hsome hchanged hvalid hfuture =>
      rw [hspec, Option.some.injEq] at hsome
      exact absurd (hprogress.spec.trans hsome) (hchanged row' rfl)
  | waiting old hold hsome hnot =>
      cases hold
      exact ⟨_, rfl, hprogress.setMaxResets _⟩
  | requested old hold hdue =>
      cases hold
      exact ⟨_, rfl, hprogress.setMaxResets _⟩

/-- While a schedule stays the same, its row loses no reset and its deadline does not drift. -/
theorem Progress.step {zones : String → Option ℤ} {s t : CycleState} {e : CycleEvent}
    {email : String} {row row' : Cycle} {n : ℕ} (hvalid : CyclesValid s.db)
    (hrow : s.db.cycles.get? email = some row') (hprogress : Progress row row' n)
    (h : Guarded (cycleStep zones) (KeepsSchedule email row.spec) s e t) :
    ∃ row'', t.db.cycles.get? email = some row'' ∧
      Progress row row'' (n + if e.resets email = true then 1 else 0) := by
  obtain ⟨hstep, hkeeps, hforget⟩ := h
  cases e with
  | schedule emails now tokens =>
      obtain ⟨_, rfl⟩ := hstep
      cases hresult : scheduleCycles (panelOffset zones s.timezone) now tokens emails s.db with
      | error e => exact ⟨row', hrow, hprogress⟩
      | ok db' =>
          rcases scheduleCycles_cases hresult email with hsame | ⟨m, hmem, hscheduled⟩
          · unfold CycleDb.client at hsame
            rw [Prod.mk.injEq] at hsame
            exact ⟨row', hsame.2.trans hrow, hprogress⟩
          · obtain ⟨hm, hlive, _⟩ := mem_selectedClients.mp hmem
            rw [hrow] at hscheduled
            exact hscheduled.keeps (hkeeps m hm hlive) hprogress
  | complete email' now due =>
      obtain ⟨_, hdue, rfl⟩ := hstep
      rcases completeCycle_cases (panelOffset zones s.timezone) now email' hvalid with
        ⟨hearly, hsame⟩ | ⟨old, next, hlate, hold, hle, hnext, hresult⟩
      · rw [hearly] at hdue
        rw [hsame, hdue]
        exact ⟨row', hrow, by simpa [CycleEvent.resets] using hprogress⟩
      · rw [hlate] at hdue
        rw [hresult, hdue]
        unfold CycleState.commit
        dsimp only
        rw [Table.get?_update]
        by_cases hsame : email = email'
        · subst hsame
          rw [hrow, Option.some.injEq] at hold
          subst hold
          rw [if_pos rfl, hrow]
          exact ⟨_, rfl, by simpa [CycleEvent.resets] using hprogress.complete hle hnext⟩
        · rw [if_neg hsame]
          refine ⟨row', hrow, ?_⟩
          have hother : email' ≠ email := fun heq => hsame heq.symm
          simpa [CycleEvent.resets, hother] using hprogress
  | write email' m =>
      unfold cycleStep at hstep
      subst hstep
      refine ⟨row', ?_, by simpa [CycleEvent.resets] using hprogress⟩
      cases m <;> exact hrow
  | forget email' =>
      unfold cycleStep at hstep
      subst hstep
      refine ⟨row', ?_, by simpa [CycleEvent.resets] using hprogress⟩
      have hother : email ≠ email' := by
        rintro rfl
        exact hforget rfl
      dsimp only
      rw [Table.get?_erase, if_neg hother]
      exact hrow
  | setTimezone timezone =>
      unfold cycleStep at hstep
      subst hstep
      exact ⟨row', hrow, by simpa [CycleEvent.resets] using hprogress⟩

/-- While a schedule stays the same, its row counts the resets that were due. -/
theorem Progress.run {zones : String → Option ℤ} {s t : CycleState} {es : List CycleEvent}
    {email : String} {row : Cycle} (hvalid : CyclesValid s.db)
    (hrow : s.db.cycles.get? email = some row)
    (hrun : Run (Guarded (cycleStep zones) (KeepsSchedule email row.spec)) s es t) :
    ∃ row', t.db.cycles.get? email = some row' ∧
      Progress row row' (es.countP (CycleEvent.resets email)) := by
  induction hrun with
  | nil => exact ⟨row, hrow, Progress.refl row⟩
  | @snoc es t u e hpre hlast ih =>
      obtain ⟨row', hrow', hprogress⟩ := ih
      have hvalid' : CyclesValid t.db := hvalid.run hpre.of_guarded
      have hnext := Progress.step hvalid' hrow' hprogress hlast
      rw [List.countP_append, List.countP_singleton]
      exact hnext

/-! ## The main result -/

/-- A reset completed at {lit}`now` advances a row that is due by one, and nothing else. -/
def AdvancesDue (offset : ℤ) (email : String) (now : ℚ) (db : CycleDb) (row : Cycle) : Prop :=
  ∃ next db', completeCycle offset now email db = .ok db' ∧ NextDue offset row now next ∧
    db'.cycles.get? email = some { row with nextAt := next, completed := row.completed + 1 } ∧
    db'.managed = db.managed ∧ ∀ other, other ≠ email → db'.cycles.get? other = db.cycles.get? other

/-- Scheduling requests the resets that are due, and no others. -/
structure RequestsDue (emails : Option (List String)) (now : ℚ) (tokens : String → String)
    (db db' : CycleDb) : Prop where
  /-- A reset of every client that is due is requested. -/
  fires : ∀ email m row, (email, m) ∈ selectedClients emails db →
    db.cycles.get? email = some row → ResetDue now m row →
      ∃ m', db'.managed.get? email = some m' ∧ m.Awaits (tokens email) m'
  /-- A client whose row changes is due, and its resets are not used up. -/
  only : ∀ email, db'.managed.get? email ≠ db.managed.get? email →
    ∃ m row, (email, m) ∈ selectedClients emails db ∧ db.cycles.get? email = some row ∧
      ResetDue now m row ∧ ¬ (0 < m.resetCount ∧ m.resetCount ≤ row.completed)

/-- A schedule that is not that of the row starts anew. -/
def RestartsChanged (emails : Option (List String)) (now : ℚ) (db db' : CycleDb) : Prop :=
  ∀ email m spec, (email, m) ∈ selectedClients emails db → scheduleSpec m.desired = some spec →
    (∀ row, db.cycles.get? email = some row → row.spec ≠ spec) →
      ∃ row, db'.cycles.get? email = some row ∧ row.spec = spec ∧ row.completed = 0 ∧
        now < row.nextAt

/-- A completed reset advances a row that is due by one. -/
theorem advancesDue {offset : ℤ} {email : String} {now : ℚ} {db : CycleDb} {row : Cycle}
    (hrow : db.cycles.get? email = some row) (hvalid : row.spec.Valid) (hdue : row.nextAt ≤ now) :
    AdvancesDue offset email now db row := by
  obtain ⟨next, hnext, hcomplete⟩ := completeCycle_due hrow hvalid hdue
  refine ⟨next, _, hcomplete, hnext, ?_, rfl, ?_⟩
  · simp [hrow]
  · intro other hother
    simp [hother]

/-- A client that is due has resets left. -/
theorem ResetDue.not_used {now : ℚ} {m : ManagedMeta} {row : Cycle} (h : ResetDue now m row) :
    ¬ (0 < m.resetCount ∧ m.resetCount ≤ row.completed) := by
  rintro ⟨hpos, hused⟩
  rcases h.left with hany | hleft
  · exact hpos.ne' hany
  · exact not_le.mpr hleft hused

/-- What a call leaves of a client, by the row that it leaves. -/
theorem managed_of_scheduled {email : String} {db' : CycleDb}
    {r : Option ManagedMeta × Option Cycle} (h : db'.client email = r) :
    db'.managed.get? email = r.1 := by
  rw [← h]
  rfl

/-- Scheduling requests the resets that are due. -/
theorem requestsDue {offset : ℤ} {now : ℚ} {tokens : String → String}
    {emails : Option (List String)} {db db' : CycleDb}
    (h : scheduleCycles offset now tokens emails db = .ok db') :
    RequestsDue emails now tokens db db' := by
  constructor
  · intro email m row hmem hrow hdue
    obtain ⟨hm, hlive, hfor⟩ := mem_selectedClients.mp hmem
    have hscheduled := scheduleCycles_at h hm hlive hfor
    generalize hr : db'.client email = r at hscheduled
    have hmanaged := managed_of_scheduled hr
    cases hscheduled with
    | unscheduled hspec =>
        rw [hdue.spec] at hspec
        cases hspec
    | restarted spec next hspec hnew hvalid hfuture =>
        rw [hdue.spec, Option.some.injEq] at hspec
        exact absurd hspec (hnew row hrow)
    | waiting old hold hspec hnot =>
        rw [hrow, Option.some.injEq] at hold
        exact absurd (hold ▸ hdue) hnot
    | requested old hold hdue' =>
        exact ⟨_, hmanaged, m.awaits_awaitReset (tokens email)⟩
  · intro email hchanged
    rcases scheduleCycles_cases h email with hsame | ⟨m, hmem, hscheduled⟩
    · unfold CycleDb.client at hsame
      rw [Prod.mk.injEq] at hsame
      exact absurd hsame.1 hchanged
    · obtain ⟨hm, _, _⟩ := mem_selectedClients.mp hmem
      generalize hr : db'.client email = r at hscheduled
      rw [managed_of_scheduled hr, hm] at hchanged
      cases hscheduled with
      | unscheduled hspec => exact absurd rfl hchanged
      | restarted spec next hspec hnew hvalid hfuture => exact absurd rfl hchanged
      | waiting row hrow hspec hnot => exact absurd rfl hchanged
      | requested row hrow hdue => exact ⟨m, row, hmem, hrow, hdue, hdue.not_used⟩

/-- Scheduling starts changed schedules anew. -/
theorem restartsChanged {offset : ℤ} {now : ℚ} {tokens : String → String}
    {emails : Option (List String)} {db db' : CycleDb}
    (h : scheduleCycles offset now tokens emails db = .ok db') :
    RestartsChanged emails now db db' := by
  intro email m spec hmem hspec hchanged
  obtain ⟨hm, hlive, hfor⟩ := mem_selectedClients.mp hmem
  have hscheduled := scheduleCycles_at h hm hlive hfor
  generalize hr : db'.client email = r at hscheduled
  have hcycle : db'.cycles.get? email = r.2 := by
    rw [← hr]
    rfl
  cases hscheduled with
  | unscheduled hnone =>
      rw [hspec] at hnone
      cases hnone
  | restarted spec' next hsome hnew hvalid hfuture =>
      rw [hspec, Option.some.injEq] at hsome
      exact ⟨_, hcycle, hsome.symm, rfl, hfuture⟩
  | waiting row hrow hsome hnot =>
      rw [hspec, Option.some.injEq] at hsome
      exact absurd hsome.symm (hchanged row hrow)
  | requested row hrow hdue =>
      have hsome := hdue.spec
      rw [hspec, Option.some.injEq] at hsome
      exact absurd hsome.symm (hchanged row hrow)

/-- Scheduled resets fire once per period that is due.  In every state that a run reaches: a
completed reset advances a row that is due by one, to a deadline in the future that lies on the
schedule, and changes nothing if the row is not due; scheduling requests the resets of exactly the
clients that are due and have resets left, carries valid schedules out, and starts changed
schedules anew; and while a schedule stays the same, its row counts exactly the completed resets
that were due. -/
theorem scheduled_resets {zones : String → Option ℤ} {s t : CycleState} {es : List CycleEvent}
    (hvalid : CyclesValid s.db) (hrun : Run (cycleStep zones) s es t) :
    (∀ email row now, t.db.cycles.get? email = some row → row.nextAt ≤ now →
      AdvancesDue (panelOffset zones t.timezone) email now t.db row) ∧
    (∀ email now, (∀ row, t.db.cycles.get? email = some row → now < row.nextAt) →
      completeCycle (panelOffset zones t.timezone) now email t.db = .ok t.db) ∧
    (∀ emails now tokens db,
      scheduleCycles (panelOffset zones t.timezone) now tokens emails t.db = .ok db →
        RequestsDue emails now tokens t.db db ∧ RestartsChanged emails now t.db db) ∧
    (∀ emails now tokens,
      (∀ email m, (email, m) ∈ selectedClients emails t.db →
        ∀ spec, scheduleSpec m.desired = some spec → spec.Valid) →
      ∃ db, scheduleCycles (panelOffset zones t.timezone) now tokens emails t.db = .ok db) ∧
    ∀ email row fs u, t.db.cycles.get? email = some row →
      Run (Guarded (cycleStep zones) (KeepsSchedule email row.spec)) t fs u →
        ∃ row', u.db.cycles.get? email = some row' ∧
          Progress row row' (fs.countP (CycleEvent.resets email)) := by
  have hvalid' : CyclesValid t.db := hvalid.run hrun
  refine ⟨?_, ?_, ?_, ?_, ?_⟩
  · intro email row now hrow hdue
    exact advancesDue hrow (hvalid' email row hrow) hdue
  · intro email now hearly
    exact completeCycle_early hearly
  · intro emails now tokens db h
    exact ⟨requestsDue h, restartsChanged h⟩
  · intro emails now tokens hschedules
    exact scheduleCycles_returns hschedules
  · intro email row fs u hrow hkept
    exact Progress.run hvalid' hrow hkept

/-- A client whose traffic is reset every day, at most twice, before it is scheduled. -/
def dailyStart : CycleState where
  db :=
    { managed := Table.empty.insert "mika"
        ⟨⟨some "daily", some 0, some 0, some 2⟩, .none, "", .applied, 0, 0, ""⟩
      cycles := Table.empty }
  timezone := none
  clock := 0

/-- The state after the client was scheduled. -/
def dailyScheduled : CycleState :=
  dailyStart.commit 0 (scheduleCycles 0 0 (fun _ => "") none dailyStart.db)

/-- On the third day a reset is requested; when it is completed it counts once, and the deadline
moves to the end of that day. -/
theorem scheduled_resets_daily :
    AdvancesDue 0 "mika" 200000 dailyScheduled.db ⟨0, 86400, 0, 2, .daily, 0⟩ ∧
      ∃ db m, scheduleCycles 0 200000 (fun _ => "token") none dailyScheduled.db = .ok db ∧
        db.managed.get? "mika" = some m ∧ m.op = .reset ∧ m.opId = "token" := by
  have hvalid : CyclesValid dailyStart.db := by
    intro email row hrow
    cases hrow
  have hstep : cycleStep (fun _ => none) dailyStart (.schedule none 0 fun _ => "")
      dailyScheduled := ⟨by decide +kernel, rfl⟩
  have hresets := scheduled_resets hvalid (Run.single hstep)
  refine ⟨hresets.1 "mika" _ 200000 (by decide +kernel) (by decide +kernel), ?_⟩
  have hvalid' : ∀ email m, (email, m) ∈ selectedClients none dailyScheduled.db →
      ∀ spec, scheduleSpec m.desired = some spec → spec.Valid := by
    have hall : ∀ row ∈ selectedClients none dailyScheduled.db,
        scheduleSpec row.2.desired = some ⟨.daily, 0, 0⟩ := by decide +kernel
    intro email m hmem spec hspec
    rw [hall _ hmem, Option.some.injEq] at hspec
    subst hspec
    exact Or.inr (by decide)
  obtain ⟨db, hdb⟩ := hresets.2.2.2.1 none 200000 (fun _ => "token") hvalid'
  have hdue : ResetDue 200000
      ⟨⟨some "daily", some 0, some 0, some 2⟩, .none, "", .applied, 0, 0, ""⟩
      ⟨0, 86400, 0, 2, .daily, 0⟩ :=
    ⟨by decide +kernel, by decide +kernel, by decide +kernel, rfl, rfl⟩
  obtain ⟨m, hm, hawaits⟩ := (hresets.2.2.1 none 200000 (fun _ => "token") db hdb).1.fires "mika" _ _
    (by decide +kernel) (by decide +kernel) hdue
  exact ⟨db, m, hdb, hm, hawaits.op, hawaits.opId⟩

end Policy
end DarkXray
