import DarkXray.Credit.Coverage
import DarkXray.Library.Runs

/-!
# Sequences of plan changes

The unlimited service of one client over all its plan changes, from the first
one on.  Next to the stored entitlement an account keeps what the changes have
charged and what they have really granted: the growth of the service that is
still ahead, measured on the stored segments and not with the code's counter.

Main results:

- Theorem {lit}`PlanInv.step`: an accepted change keeps the entitlement, the
  charges and the granted service in step.
- Theorem {lit}`unlimited_service_paid`: after every sequence of changes the
  latest configuration is covered and the charges are the rounded-up service.
-/

namespace DarkXray
namespace Credit

open Library Library.Staircase Policy

/-- Service still ahead at an instant, in IP-seconds: the stored segments and the
duration whose clock has not started. -/
noncomputable def capacity (e : Entitlement) (now : ℤ) : ℤ :=
  area e.segments now + e.pendingSeconds * e.pendingIps

/-- One client: the entitlement, the latest accepted call, every debit, and the
IP-seconds granted by all calls. -/
structure Account where
  state : Option Entitlement
  latest : Option PlanCall
  debits : List ℤ
  granted : ℤ

namespace Account

/-- A client without an entitlement. -/
def fresh : Account where
  state := none
  latest := none
  debits := []
  granted := 0

/-- The stored entitlement, or the one a first change starts from. -/
def current (a : Account) : Entitlement :=
  a.state.getD .empty

/-- The account after an accepted call.  A volumetric configuration grants no
unlimited service. -/
noncomputable def record (a : Account) (c : PlanCall) (new : Entitlement) (debit : ℤ) : Account where
  state := some new
  latest := some c
  debits := a.debits ++ [debit]
  granted := a.granted +
    if 0 < c.quotaBytes then 0 else capacity new c.now - capacity a.current c.now

end Account

/-- A successful call of {lit}`plan_change`.  Only a client without an entitlement
can be created; the clock counts seconds from the epoch and does not run
backwards. -/
structure PlanStep (a : Account) (c : PlanCall) (b : Account) : Prop where
  create : c.creation = true → a.state = none
  epoch : 0 ≤ c.now
  clock : ∀ p, a.latest = some p → p.now ≤ c.now
  accepted : ∃ new debit, planChange a.state c = .ok (new, debit) ∧ b = a.record c new debit

/-- The stored segments grant a tier at an instant. -/
def Grants (e : Entitlement) (t ips : ℤ) : Prop :=
  ∃ s ∈ e.segments, s.start ≤ t ∧ t < s.stop ∧ ips ≤ s.level

/-- What holds of a client's entitlement between two changes. -/
structure PlanInv (a : Account) : Prop where
  modern : a.current.legacyUntimed = false
  pendingSeconds : 0 ≤ a.current.pendingSeconds
  pendingIps : 0 ≤ a.current.pendingIps
  waiting : a.current.pendingSeconds ≠ 0 → a.current.segments = []
  nonneg : 0 ≤ a.current.seconds
  counted : a.current.seconds = a.granted
  rounded : a.current.units = (a.current.seconds + month - 1) / month
  paid : a.debits.sum = a.current.units
  debits : ∀ d ∈ a.debits, 0 ≤ d
  covered : ∀ c, a.latest = some c → c.quotaBytes = 0 →
    ∀ t, c.now ≤ t → t < c.expiresAt → Grants a.current t c.ipLimit

/-- The invariant holds of a fresh account. -/
theorem planInv_fresh : PlanInv Account.fresh where
  modern := rfl
  pendingSeconds := le_rfl
  pendingIps := le_rfl
  waiting h := absurd rfl h
  nonneg := le_rfl
  counted := rfl
  rounded := by decide
  paid := rfl
  debits := by simp [Account.fresh]
  covered := by simp [Account.fresh]

/-! ## Rounding -/

theorem month_eq : month = 2592000 :=
  rfl

/-- The cumulative counter rounds up. -/
theorem rounded_eq_ceil (s : ℤ) : (s + month - 1) / month = ⌈(s : ℚ) / month⌉ := by
  symm
  rw [Int.ceil_eq_iff, month_eq]
  have hlo : ((s + 2592000 - 1) / 2592000 - 1) * 2592000 < s := by omega
  have hhi : s ≤ (s + 2592000 - 1) / 2592000 * 2592000 := by omega
  constructor
  · rw [lt_div_iff₀ (by norm_num)]
    exact_mod_cast hlo
  · rw [div_le_iff₀ (by norm_num)]
    exact_mod_cast hhi

/-- The units of a duration are the rounded-up units of its IP-seconds. -/
theorem unitsForDays_eq (ips days : ℤ) :
    (ips * days + 29) / 30 = (days * day * ips + month - 1) / month := by
  have hseconds : days * day * ips = ips * days * 86400 := by
    rw [day]
    ring
  rw [hseconds, month_eq]
  omega

/-! ## One change -/

/-- What was bought begins when the client connects first. -/
theorem activate_of_pending {e : Entitlement} (hmodern : e.legacyUntimed = false)
    (hpending : e.pendingSeconds ≠ 0) (expiresAt now : ℤ) :
    activate e expiresAt now = { e with
      segments := [⟨now, now + e.pendingSeconds, e.pendingIps⟩]
      pendingSeconds := 0
      pendingIps := 0 } := by
  simp [activate, hmodern, hpending]

/-- Nothing is activated where no time is pending. -/
theorem activate_of_started {e : Entitlement} (hmodern : e.legacyUntimed = false)
    (hstarted : e.pendingSeconds = 0) (expiresAt now : ℤ) : activate e expiresAt now = e := by
  simp [activate, hmodern, hstarted]

/-- Activation moves a pending duration into the segments and changes nothing else. -/
theorem activate_spec {a : Account} (h : PlanInv a) (expiresAt now : ℤ) :
    area (activate a.current expiresAt now).segments now = capacity a.current now ∧
      (activate a.current expiresAt now).pendingSeconds = 0 ∧
      0 ≤ (activate a.current expiresAt now).pendingIps ∧
      (activate a.current expiresAt now).seconds = a.current.seconds ∧
      (activate a.current expiresAt now).legacyUntimed = false := by
  by_cases hpending : a.current.pendingSeconds = 0
  · rw [activate_of_started h.modern hpending]
    exact ⟨by simp [capacity, hpending], hpending, h.pendingIps, rfl, h.modern⟩
  · rw [activate_of_pending h.modern hpending]
    refine ⟨?_, rfl, le_rfl, rfl, h.modern⟩
    have hseconds := h.pendingSeconds
    have hsum : area [⟨now, now + a.current.pendingSeconds, a.current.pendingIps⟩] now =
        ∑ t ∈ Finset.Ico now (now + a.current.pendingSeconds),
          levelAt [⟨now, now + a.current.pendingSeconds, a.current.pendingIps⟩] t :=
      area_eq_sum (by simp)
    have hconst : ∀ t, now ≤ t → t < now + a.current.pendingSeconds →
        levelAt [⟨now, now + a.current.pendingSeconds, a.current.pendingIps⟩] t =
          a.current.pendingIps := by
      intro t hlo hhi
      rw [levelAt_singleton h.pendingIps]
      exact if_pos ⟨hlo, hhi⟩
    rw [capacity, h.waiting hpending, area_nil, hsum, sum_piece (by omega) hconst]
    ring

/-- A purchase keeps the counters in step with what was granted. -/
private theorem PlanInv.billed {a : Account} (h : PlanInv a) {c : PlanCall}
    {out new : Entitlement} {added debit : ℤ} (hquota : c.quotaBytes = 0)
    (hbill : Billed out added a.current.units new debit)
    (hseconds : out.seconds = a.current.seconds) (hadded : 0 ≤ added)
    (hgrowth : capacity new c.now - capacity a.current c.now = added) :
    new.seconds = (a.record c new debit).granted ∧
      new.units = (new.seconds + month - 1) / month ∧
      (a.record c new debit).debits.sum = new.units ∧ 0 ≤ debit := by
  have hnew : new.seconds = a.current.seconds + added := by rw [hbill.state, ← hseconds]
  have hunits : new.units = (new.seconds + month - 1) / month := by rw [hnew, hbill.state, hseconds]
  have hmono : a.current.units ≤ new.units := by
    have := h.rounded
    rw [hunits, hnew, this, month_eq]
    omega
  refine ⟨?_, hunits, ?_, ?_⟩
  · have := h.counted
    simp only [Account.record, hquota, lt_irrefl, if_false, hgrowth]
    omega
  · have := h.paid
    have := hbill.debit
    simp only [Account.record, List.sum_append, List.sum_singleton]
    omega
  · rw [hbill.debit]
    exact le_max_left _ _

/-- A call that debits nothing negative leaves no negative debit. -/
theorem mem_debits {a : Account} {c : PlanCall} {new : Entitlement} {debit : ℤ}
    (h : ∀ d ∈ a.debits, 0 ≤ d) (hdebit : 0 ≤ debit) :
    ∀ d ∈ (a.record c new debit).debits, 0 ≤ d := by
  intro d hd
  rcases List.mem_append.mp hd with hd | hd
  · exact h d hd
  · rw [List.mem_singleton.mp hd]
    exact hdebit

/-- A volumetric configuration keeps the account balanced. -/
private theorem PlanInv.volume {a : Account} (h : PlanInv a) {c : PlanCall}
    (hvolume : 0 < c.quotaBytes) : PlanInv (a.record c (dropTime a.current) 0) where
  modern := rfl
  pendingSeconds := le_rfl
  pendingIps := le_rfl
  waiting := fun _ => rfl
  nonneg := h.nonneg
  counted := by
    have := h.counted
    simpa [Account.record, hvolume, Account.current, dropTime] using this
  rounded := h.rounded
  paid := by
    have := h.paid
    simpa [Account.record, Account.current, dropTime] using this
  debits := mem_debits h.debits le_rfl
  covered := by
    rintro _ ⟨⟩ hquota
    omega

/-- The first purchase of a duration whose clock has not started. -/
private theorem PlanInv.createPending {a : Account} (h : PlanInv a) {c : PlanCall} {days : ℤ}
    (hnew : a.state = none) (hquota : c.quotaBytes = 0) (hips : 0 < c.ipLimit)
    (hexp : c.expiresAt = 0) (hlo : 1 ≤ days) (hnow : 0 ≤ c.now) :
    PlanInv (a.record c
      { a.current with
        pendingSeconds := days * day, pendingIps := c.ipLimit,
        seconds := days * day * c.ipLimit, units := (c.ipLimit * days + 29) / 30 }
      ((c.ipLimit * days + 29) / 30)) := by
  have hcurrent : a.current = .empty := by simp [Account.current, hnew]
  have hgranted : a.granted = 0 := by
    rw [← h.counted, hcurrent]
    rfl
  have hpaid : a.debits.sum = 0 := by
    rw [h.paid, hcurrent]
    rfl
  have hseconds : 0 < days * day := by
    rw [day]
    omega
  have hunits : 0 ≤ (c.ipLimit * days + 29) / 30 := by
    have : 0 < c.ipLimit * days := mul_pos hips (by omega)
    omega
  refine
    { modern := h.modern
      pendingSeconds := hseconds.le
      pendingIps := hips.le
      waiting := fun _ => by simp [Account.record, Account.current, hnew, Entitlement.empty]
      nonneg := (mul_pos hseconds hips).le
      counted := ?_
      rounded := unitsForDays_eq _ _
      paid := by simp [Account.record, Account.current, hpaid]
      debits := mem_debits h.debits hunits
      covered := ?_ }
  · simp [Account.record, Account.current, hquota, hgranted, hnew, capacity, Entitlement.empty,
      area_nil]
  · rintro _ ⟨⟩ _ t hlo' hhi
    omega

/-- A higher tier for a duration whose clock has not started. -/
private theorem PlanInv.pending {a : Account} (h : PlanInv a) {c : PlanCall} {new : Entitlement}
    {debit : ℤ} (hquota : c.quotaBytes = 0) (hips : 0 < c.ipLimit) (hexp : c.expiresAt = 0)
    (hnow : 0 ≤ c.now) (hpending : a.current.pendingSeconds ≠ 0)
    (hbill : Billed { a.current with pendingIps := max c.ipLimit a.current.pendingIps }
      (max 0 (c.ipLimit - a.current.pendingIps) * a.current.pendingSeconds) a.current.units
      new debit) : PlanInv (a.record c new debit) := by
  have hpos : 0 < a.current.pendingSeconds := lt_of_le_of_ne h.pendingSeconds (Ne.symm hpending)
  have hadded : 0 ≤ max 0 (c.ipLimit - a.current.pendingIps) * a.current.pendingSeconds :=
    mul_nonneg (le_max_left _ _) hpos.le
  have hgrowth : capacity new c.now - capacity a.current c.now =
      max 0 (c.ipLimit - a.current.pendingIps) * a.current.pendingSeconds := by
    have hmax : max c.ipLimit a.current.pendingIps =
        a.current.pendingIps + max 0 (c.ipLimit - a.current.pendingIps) := by omega
    simp only [capacity, hbill.state, hmax]
    ring
  have hcounters := h.billed hquota hbill rfl hadded hgrowth
  have hstate : (a.record c new debit).current = new := rfl
  exact
    { modern := by rw [hstate, hbill.state]; exact h.modern
      pendingSeconds := by rw [hstate, hbill.state]; exact h.pendingSeconds
      pendingIps := by rw [hstate, hbill.state]; exact le_max_of_le_left hips.le
      waiting := by rw [hstate, hbill.state]; exact h.waiting
      nonneg := by rw [hstate, hbill.state]; exact add_nonneg h.nonneg hadded
      counted := hcounters.1
      rounded := hcounters.2.1
      paid := hcounters.2.2.1
      debits := mem_debits h.debits hcounters.2.2.2
      covered := by
        rintro _ ⟨⟩ _ t hlo hhi
        omega }

/-- A purchase of the time from now up to an end. -/
private theorem PlanInv.timed {a : Account} (h : PlanInv a) {c : PlanCall} {new : Entitlement}
    {segments : List Segment} {added debit : ℤ} (hquota : c.quotaBytes = 0)
    (hips : 0 < c.ipLimit)
    (hcover : cover (activate a.current c.expiresAt c.now).segments c.now
      (max c.now c.expiresAt) c.ipLimit = .ok (segments, added))
    (hbill : Billed { activate a.current c.expiresAt c.now with segments := segments } added
      a.current.units new debit) : PlanInv (a.record c new debit) := by
  rcases activate_spec h c.expiresAt c.now with ⟨harea, hstarted, hpips, hseconds, hmodern⟩
  rcases cover_ok (le_max_left _ _) hcover with ⟨hi, hcovered⟩
  have hgrowth : capacity new c.now - capacity a.current c.now = added := by
    have hnew : capacity new c.now = area segments c.now := by
      simp [capacity, hbill.state, hstarted]
    rw [hnew, hcovered.area_eq, harea]
    ring
  have hcounters := h.billed hquota hbill hseconds hcovered.added_nonneg hgrowth
  have hstate : (a.record c new debit).current = new := rfl
  have hnew : new.segments = segments := by rw [hbill.state]
  exact
    { modern := by rw [hstate, hbill.state]; exact hmodern
      pendingSeconds := by rw [hstate, hbill.state]; exact hstarted.ge
      pendingIps := by rw [hstate, hbill.state]; exact hpips
      waiting := fun hne => absurd (by rw [hstate, hbill.state]; exact hstarted) hne
      nonneg := by rw [hstate, hbill.state]; exact hbill.inRange
      counted := hcounters.1
      rounded := hcounters.2.1
      paid := hcounters.2.2.1
      debits := mem_debits h.debits hcounters.2.2.2
      covered := by
        rintro _ ⟨⟩ _ t hlo hhi
        rw [hstate, Grants, hnew]
        exact hcovered.exists_segment hips hlo (lt_max_of_lt_right hhi) }

/-- An accepted change keeps the entitlement, the charges and the granted service
in step. -/
theorem PlanInv.step {a b : Account} {c : PlanCall} (h : PlanInv a) (hstep : PlanStep a c b) :
    PlanInv b := by
  rcases hstep.accepted with ⟨new, debit, hplan, rfl⟩
  have hcases : Accepted a.current c new debit := planChange_ok hplan
  cases hcases with
  | volume hvolume => exact h.volume hvolume
  | createPending hquota hips hcreate hexp hlo _ =>
      exact h.createPending (hstep.create hcreate) hquota hips hexp hlo hstep.epoch
  | pending hquota hips hexp hpending hbill =>
      exact h.pending hquota hips hexp hstep.epoch hpending hbill
  | timed hquota hips _ _ _ hcover hbill => exact h.timed hquota hips hcover hbill

/-- The invariant holds after every sequence of calls. -/
theorem PlanInv.run {a : Account} {calls : List PlanCall}
    (hrun : Run PlanStep Account.fresh calls a) : PlanInv a :=
  hrun.invariant planInv_fresh fun _ _ _ h hstep => h.step hstep

/-! ## Whole sequences -/

/-- What a client has got and paid for: the latest configuration is covered at
every instant, and the debits are the rounded-up service. -/
structure PaidService (a : Account) : Prop where
  covered : ∀ c, a.latest = some c → c.quotaBytes = 0 →
    ∀ t : ℝ, c.now ≤ t → t < c.expiresAt →
      ∃ s ∈ a.current.segments, (s.start : ℝ) ≤ t ∧ t < (s.stop : ℝ) ∧ c.ipLimit ≤ s.level
  counted : a.current.seconds = a.granted
  rounded : a.debits.sum = ⌈(a.granted : ℚ) / month⌉
  nonneg : ∀ d ∈ a.debits, 0 ≤ d

/-- Unlimited service is always paid for: after every sequence of accepted plan
changes of a client the latest configuration is covered by the stored segments,
the debits sum up to the granted IP-seconds rounded up once, and no debit was
negative. -/
theorem unlimited_service_paid {a : Account} {calls : List PlanCall}
    (hrun : Run PlanStep Account.fresh calls a) : PaidService a := by
  have h := PlanInv.run hrun
  refine ⟨?_, h.counted, ?_, h.debits⟩
  · intro c hlatest hquota t hlo hhi
    -- a whole second covers every instant inside it
    rcases h.covered c hlatest hquota ⌊t⌋ (Int.le_floor.mpr hlo) (Int.floor_lt.mpr hhi) with
      ⟨s, hs, hstart, hstop, hips⟩
    exact ⟨s, hs, Int.le_floor.mp hstart, Int.floor_lt.mp hstop, hips⟩
  · rw [h.paid, h.rounded, h.counted, rounded_eq_ceil]

/-- Two IP-users for thirty days without a start, then activated for a third one. -/
theorem unlimited_service_paid_activation :
    PaidService ((Account.fresh.record ⟨0, 2, 0, 1000, .int 30, true⟩
      ⟨[], 5184000, 2, 2592000, 2, false, 0⟩ 2).record ⟨0, 3, 2593000, 1000, .none, false⟩
      ⟨[⟨1000, 2593000, 3⟩], 7776000, 3, 0, 0, false, 0⟩ 1) := by
  have hcreate : PlanStep Account.fresh ⟨0, 2, 0, 1000, .int 30, true⟩ _ :=
    ⟨fun _ => rfl, by decide, by simp [Account.fresh], _, _, by rfl, rfl⟩
  refine unlimited_service_paid ((Run.single hcreate).snoc ⟨by simp, by decide, ?_, _, _, by rfl, rfl⟩)
  rintro p ⟨⟩
  exact le_rfl

end Credit
end DarkXray
