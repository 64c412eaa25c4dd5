import Mathlib.Algebra.Order.Field.Rat
import Mathlib.Algebra.Order.Floor.Ring
import Mathlib.Data.Rat.Floor
import Mathlib.Order.Bounds.Basic
import Mathlib.Tactic.IntervalCases
import Mathlib.Tactic.Linarith
import Mathlib.Tactic.NormNum
import Mathlib.Tactic.Ring

/-!
# The proleptic Gregorian calendar

Days are numbered from the first of January 1970.  A month is a year and a number from 1 to 12;
its first day and its length are computed, and every day lies in exactly one month.  The second
half has the two kinds of deadlines that repeat: those a fixed period apart, and those at midnight
of one day of every month.

Main results:

- Theorem {lit}`monthStart_add_length_le`: a month ends before every later month starts.
- Theorem {lit}`civilMonth_spec`: the month of a day contains it.
- Theorem {lit}`nextDeadline_spec`: the next deadline of a period after an instant.
- Theorem {lit}`MonthsOver.isLeast`: the next midnight of a day of the month, clamped to the last
  day of short months.
-/

namespace DarkXray
namespace Library
namespace Calendar

/-! ## Months -/

/-- Leap years. -/
def isLeap (year : ℤ) : Bool :=
  year % 4 = 0 && (year % 100 ≠ 0 || year % 400 = 0)

/-- The leap day of a year, as a number of days. -/
def leapDay (year : ℤ) : ℤ :=
  if isLeap year then 1 else 0

/-- The number of days of a month. -/
def monthLength (year month : ℤ) : ℤ :=
  if month = 2 then 28 + leapDay year
  else if month = 4 ∨ month = 6 ∨ month = 9 ∨ month = 11 then 30
  else 31

/-- The first of January of a year. -/
def yearStart (year : ℤ) : ℤ :=
  365 * (year - 1) + (year - 1) / 4 - (year - 1) / 100 + (year - 1) / 400 - 719162

/-- The days of a year before a month. -/
def daysBefore (year month : ℤ) : ℤ :=
  (367 * month - 362) / 12 - (if month ≤ 2 then 0 else 2 - leapDay year)

/-- The first day of a month. -/
def monthStart (year month : ℤ) : ℤ :=
  yearStart year + daysBefore year month

theorem leapDay_cases (year : ℤ) :
    leapDay year = 1 ∧ (year % 4 = 0 ∧ (year % 100 ≠ 0 ∨ year % 400 = 0)) ∨
      leapDay year = 0 ∧ ¬ (year % 4 = 0 ∧ (year % 100 ≠ 0 ∨ year % 400 = 0)) := by
  unfold leapDay isLeap
  by_cases h : year % 4 = 0 ∧ (year % 100 ≠ 0 ∨ year % 400 = 0)
  · left
    constructor
    · rw [if_pos]
      simp only [Bool.and_eq_true, Bool.or_eq_true, decide_eq_true_eq, ne_eq]
      exact h
    · exact h
  · simp only [not_and_or, not_or, ne_eq, not_not] at h
    right
    constructor
    · rw [if_neg]
      simp only [Bool.and_eq_true, Bool.or_eq_true, decide_eq_true_eq, ne_eq]
      omega
    · omega

/-- A year has 365 days, and a leap day. -/
theorem yearStart_succ (year : ℤ) :
    yearStart (year + 1) = yearStart year + 365 + leapDay year := by
  unfold yearStart
  rcases leapDay_cases year with ⟨hday, hyear⟩ | ⟨hday, hyear⟩
  · rw [hday]
    omega
  · rw [hday]
    omega

theorem daysBefore_succ {month : ℤ} (year : ℤ) (h1 : 1 ≤ month) (h12 : month ≤ 11) :
    daysBefore year (month + 1) = daysBefore year month + monthLength year month := by
  unfold daysBefore monthLength
  interval_cases month <;> norm_num <;> ring

/-- A month ends where the next one starts, within a year. -/
theorem monthStart_succ {month : ℤ} (year : ℤ) (h1 : 1 ≤ month) (h11 : month ≤ 11) :
    monthStart year (month + 1) = monthStart year month + monthLength year month := by
  unfold monthStart
  rw [daysBefore_succ year h1 h11]
  omega

/-- December ends where the next January starts. -/
theorem monthStart_newYear (year : ℤ) :
    monthStart (year + 1) 1 = monthStart year 12 + monthLength year 12 := by
  have hleap := leapDay_cases year
  have hyear := yearStart_succ year
  unfold monthStart daysBefore monthLength
  norm_num
  omega

theorem one_le_monthLength (year month : ℤ) : 28 ≤ monthLength year month := by
  have hleap := leapDay_cases year
  unfold monthLength
  split_ifs <;> omega

/-- Months by their number; month {lit}`i` is the month {lit}`i % 12 + 1` of year
{lit}`i / 12`. -/
theorem monthStart_index (i : ℤ) :
    monthStart ((i + 1) / 12) ((i + 1) % 12 + 1) =
      monthStart (i / 12) (i % 12 + 1) + monthLength (i / 12) (i % 12 + 1) := by
  by_cases hlast : i % 12 = 11
  · have hyear : (i + 1) / 12 = i / 12 + 1 := by omega
    have hmonth : (i + 1) % 12 + 1 = 1 := by omega
    rw [hyear, hmonth, hlast]
    exact monthStart_newYear _
  · have hyear : (i + 1) / 12 = i / 12 := by omega
    have hmonth : (i + 1) % 12 + 1 = (i % 12 + 1) + 1 := by omega
    rw [hyear, hmonth]
    exact monthStart_succ _ (by omega) (by omega)

theorem monthStart_index_le (i : ℤ) (n : ℕ) :
    monthStart (i / 12) (i % 12 + 1) + monthLength (i / 12) (i % 12 + 1) ≤
      monthStart ((i + 1 + n) / 12) ((i + 1 + n) % 12 + 1) := by
  induction n with
  | zero =>
      have h := monthStart_index i
      simp only [Nat.cast_zero, add_zero]
      omega
  | succ n ih =>
      have hstep := monthStart_index (i + 1 + n)
      have hlen := one_le_monthLength ((i + 1 + n) / 12) ((i + 1 + n) % 12 + 1)
      have hcast : i + 1 + ((n + 1 : ℕ) : ℤ) = i + 1 + n + 1 := by
        push_cast
        ring
      rw [hcast]
      omega

/-- A month ends before every later month starts. -/
theorem monthStart_add_length_le {y m y' m' : ℤ} (hm : 1 ≤ m ∧ m ≤ 12) (hm' : 1 ≤ m' ∧ m' ≤ 12)
    (h : 12 * y + m < 12 * y' + m') :
    monthStart y m + monthLength y m ≤ monthStart y' m' := by
  have hle := monthStart_index_le (12 * y + m - 1) (12 * y' + m' - (12 * y + m) - 1).toNat
  have hto : ((12 * y' + m' - (12 * y + m) - 1).toNat : ℤ) = 12 * y' + m' - (12 * y + m) - 1 :=
    Int.toNat_of_nonneg (by omega)
  have hy : (12 * y + m - 1) / 12 = y := by omega
  have hmod : (12 * y + m - 1) % 12 + 1 = m := by omega
  have hy' : (12 * y + m - 1 + 1 + (12 * y' + m' - (12 * y + m) - 1)) / 12 = y' := by omega
  have hmod' : (12 * y + m - 1 + 1 + (12 * y' + m' - (12 * y + m) - 1)) % 12 + 1 = m' := by omega
  rw [hto, hy, hmod, hy', hmod'] at hle
  exact hle

/-! ## The month of a day -/

/-- The year of a day, by cycles of 400, 100, 4 and one years. -/
def civilYear (day : ℤ) : ℤ :=
  let n := day + 719162
  let r400 := n % 146097
  let r100 := r400 % 36524
  let r4 := r100 % 1461
  let year := 400 * (n / 146097) + 100 * (r400 / 36524) + 4 * (r100 / 1461) + r4 / 365 + 1
  if r4 / 365 = 4 ∨ r400 / 36524 = 4 then year - 1 else year

/-- The year and the month of a day. -/
def civilMonth (day : ℤ) : ℤ × ℤ :=
  let year := civilYear day
  let n := day - yearStart year
  let shift := if n < 59 + leapDay year then 0 else 2 - leapDay year
  (year, (12 * (n + shift) + 373) / 367)

/-- The first day of a year whose number is given by its cycles. -/
theorem yearStart_cycles {a b c d : ℤ} (hb : 0 ≤ b ∧ b ≤ 3) (hc : 0 ≤ c ∧ c ≤ 24)
    (hd : 0 ≤ d ∧ d ≤ 3) :
    yearStart (400 * a + 100 * b + 4 * c + d + 1) =
      146097 * a + 36524 * b + 1461 * c + 365 * d - 719162 := by
  have h4 : (400 * a + 100 * b + 4 * c + d) / 4 = 100 * a + 25 * b + c := by omega
  have h100 : (400 * a + 100 * b + 4 * c + d) / 100 = 4 * a + b := by omega
  have h400 : (400 * a + 100 * b + 4 * c + d) / 400 = a := by omega
  unfold yearStart
  rw [add_sub_cancel_right, h4, h100, h400]
  ring

/-- The year of a day contains it. -/
theorem civilYear_spec (day : ℤ) :
    yearStart (civilYear day) ≤ day ∧
      day < yearStart (civilYear day) + 365 + leapDay (civilYear day) := by
  have hleap := leapDay_cases (civilYear day)
  obtain ⟨a, ha⟩ : ∃ a, a = (day + 719162) / 146097 := ⟨_, rfl⟩
  obtain ⟨b, hb⟩ : ∃ b, b = (day + 719162) % 146097 / 36524 := ⟨_, rfl⟩
  obtain ⟨c, hc⟩ : ∃ c, c = (day + 719162) % 146097 % 36524 / 1461 := ⟨_, rfl⟩
  obtain ⟨d, hd⟩ : ∃ d, d = (day + 719162) % 146097 % 36524 % 1461 / 365 := ⟨_, rfl⟩
  have hyear : civilYear day =
      if d = 4 ∨ b = 4 then 400 * a + 100 * b + 4 * c + d + 1 - 1
      else 400 * a + 100 * b + 4 * c + d + 1 := by
    rw [ha, hb, hc, hd]
    rfl
  rw [hyear] at hleap ⊢
  by_cases hlast : d = 4 ∨ b = 4
  · -- the last day of a cycle of four or of 400 years is the leap day of its last year
    rw [if_pos hlast] at hleap ⊢
    rcases hlast with h4 | h4
    · have hstart := yearStart_cycles (a := a) (b := b) (c := c) (d := 3) (by omega) (by omega)
        (by omega)
      have hnum : 400 * a + 100 * b + 4 * c + d + 1 - 1 = 400 * a + 100 * b + 4 * c + 3 + 1 := by
        omega
      rw [hnum] at hleap ⊢
      rw [hstart]
      omega
    · have hstart := yearStart_cycles (a := a) (b := 3) (c := 24) (d := 3) (by omega) (by omega)
        (by omega)
      have hnum : 400 * a + 100 * b + 4 * c + d + 1 - 1 = 400 * a + 100 * 3 + 4 * 24 + 3 + 1 := by
        omega
      rw [hnum] at hleap ⊢
      rw [hstart]
      omega
  · rw [if_neg hlast] at hleap ⊢
    have hstart := yearStart_cycles (a := a) (b := b) (c := c) (d := d) (by omega) (by omega)
      (by omega)
    rw [hstart]
    omega

/-- The month of a day contains it. -/
theorem civilMonth_spec (day : ℤ) :
    (1 ≤ (civilMonth day).2 ∧ (civilMonth day).2 ≤ 12) ∧
      monthStart (civilMonth day).1 (civilMonth day).2 ≤ day ∧
        day < monthStart (civilMonth day).1 (civilMonth day).2 +
          monthLength (civilMonth day).1 (civilMonth day).2 := by
  have hyear := civilYear_spec day
  have hleap := leapDay_cases (civilYear day)
  unfold civilMonth monthStart daysBefore monthLength
  dsimp only
  split_ifs <;> omega

/-! ## Deadlines a fixed period apart -/

/-- The first deadline after an instant, of those a period apart. -/
def nextDeadline (next : ℚ) (period : ℤ) (now : ℚ) : ℚ :=
  next + ((⌊(now - next) / period⌋ + 1) * period : ℤ)

/-- However many periods were missed, the next deadline is at most one period away, and a positive
number of whole periods after the old one. -/
theorem nextDeadline_spec {next now : ℚ} {period : ℤ} (hperiod : 0 < period) (hdue : next ≤ now) :
    now < nextDeadline next period now ∧ nextDeadline next period now ≤ now + period ∧
      ∃ k : ℕ, 0 < k ∧ nextDeadline next period now = next + k * period := by
  have hpos : (0 : ℚ) < period := by exact_mod_cast hperiod
  have hlo := Int.floor_le ((now - next) / period)
  have hhi := Int.lt_floor_add_one ((now - next) / period)
  have hnonneg : 0 ≤ ⌊(now - next) / period⌋ := by
    apply Int.floor_nonneg.mpr
    exact div_nonneg (by linarith) hpos.le
  rw [le_div_iff₀ hpos] at hlo
  rw [div_lt_iff₀ hpos] at hhi
  have hval : nextDeadline next period now =
      next + ((⌊(now - next) / period⌋ : ℚ) + 1) * period := by
    unfold nextDeadline
    push_cast
    ring
  refine ⟨by rw [hval]; linarith, by rw [hval]; linarith, (⌊(now - next) / period⌋ + 1).toNat,
    by omega, ?_⟩
  have hcast : (((⌊(now - next) / period⌋ + 1).toNat : ℤ) : ℚ) = ⌊(now - next) / period⌋ + 1 := by
    rw [Int.toNat_of_nonneg (by omega)]
    push_cast
    ring
  rw [hval]
  rw [Int.cast_natCast] at hcast
  rw [hcast]

/-! ## Deadlines on a day of the month -/

/-- Round to whole numbers, half to even. -/
def roundHalfEven (q : ℚ) : ℤ :=
  if q - ⌊q⌋ < 1 / 2 then ⌊q⌋
  else if 1 / 2 < q - ⌊q⌋ then ⌊q⌋ + 1
  else if ⌊q⌋ % 2 = 0 then ⌊q⌋ else ⌊q⌋ + 1

/-- The day at an offset from universal time; clocks count microseconds. -/
def localDay (offset : ℤ) (t : ℚ) : ℤ :=
  (roundHalfEven (t * 1000000) + offset * 1000000) / 86400000000

/-- Midnight at the start of a day of a month, at an offset from universal time. -/
def midnight (offset year month day : ℤ) : ℚ :=
  (86400 * (monthStart year month + (day - 1)) - offset : ℤ)

/-- The midnights of one day of every month; short months end before it. -/
def monthly (offset day : ℤ) : Set ℚ :=
  {t | ∃ y m, (1 ≤ m ∧ m ≤ 12) ∧ t = midnight offset y m (min day (monthLength y m))}

theorem roundHalfEven_bounds (q : ℚ) :
    q - 1 / 2 ≤ roundHalfEven q ∧ (roundHalfEven q : ℚ) ≤ q + 1 / 2 := by
  have hlo := Int.floor_le q
  have hhi := Int.lt_floor_add_one q
  unfold roundHalfEven
  split_ifs <;> push_cast <;> constructor <;> linarith

/-- Rounding moves an instant over at most one midnight. -/
theorem localDay_bounds (offset : ℤ) (t : ℚ) :
    ((86400 * (localDay offset t - 1) - offset : ℤ) : ℚ) ≤ t ∧
      t < (86400 * (localDay offset t + 1) - offset : ℤ) := by
  have hround := roundHalfEven_bounds (t * 1000000)
  have hday : localDay offset t * 86400000000 ≤
        roundHalfEven (t * 1000000) + offset * 1000000 ∧
      roundHalfEven (t * 1000000) + offset * 1000000 + 1 ≤
        (localDay offset t + 1) * 86400000000 := by
    unfold localDay
    omega
  have hlo : (localDay offset t : ℚ) * 86400000000 ≤
      roundHalfEven (t * 1000000) + offset * 1000000 := by
    exact_mod_cast hday.1
  have hhi : (roundHalfEven (t * 1000000) : ℚ) + offset * 1000000 + 1 ≤
      (localDay offset t + 1) * 86400000000 := by
    exact_mod_cast hday.2
  push_cast
  constructor
  · linarith [hround.2]
  · linarith [hround.1]

/-- The days of a month come a day before those of every later month. -/
theorem midnight_lt (offset d' : ℤ) {y m d y' m' : ℤ} (hm : 1 ≤ m ∧ m ≤ 12) (hm' : 1 ≤ m' ∧ m' ≤ 12)
    (h : 12 * y + m < 12 * y' + m') (hd : d ≤ monthLength y m) (hd' : 1 ≤ d') :
    midnight offset y m d + 86400 ≤ midnight offset y' m' d' := by
  have hle := monthStart_add_length_le hm hm' h
  have hint : 86400 * (monthStart y m + (d - 1)) - offset + 86400 ≤
      86400 * (monthStart y' m' + (d' - 1)) - offset := by omega
  unfold midnight
  exact_mod_cast hint

/-- The midnights of all months before a month are over. -/
def MonthsOver (offset day : ℤ) (now : ℚ) (y m : ℤ) : Prop :=
  ∀ y' m', 1 ≤ m' ∧ m' ≤ 12 → 12 * y' + m' < 12 * y + m →
    midnight offset y' m' (min day (monthLength y' m')) ≤ now

/-- When a month is reached whose midnight is not over, that midnight is the next one. -/
theorem MonthsOver.isLeast {offset day : ℤ} {now : ℚ} {y m : ℤ} (hday : 1 ≤ day)
    (hm : 1 ≤ m ∧ m ≤ 12) (hover : MonthsOver offset day now y m)
    (hnow : now < midnight offset y m (min day (monthLength y m))) :
    IsLeast {t ∈ monthly offset day | now < t}
      (midnight offset y m (min day (monthLength y m))) := by
  constructor
  · exact ⟨⟨y, m, hm, rfl⟩, hnow⟩
  · rintro t ⟨⟨y', m', hm', rfl⟩, ht⟩
    have hlen := one_le_monthLength y' m'
    rcases lt_trichotomy (12 * y' + m') (12 * y + m) with hlt | heq | hgt
    · exact absurd ht (not_lt.mpr (hover y' m' hm' hlt))
    · have hy : y' = y := by omega
      have hmm : m' = m := by omega
      rw [hy, hmm]
    · have h := midnight_lt offset (min day (monthLength y' m')) hm hm' hgt
        (min_le_right day (monthLength y m)) (by omega)
      linarith

/-- A month whose midnight is over joins those before it. -/
theorem MonthsOver.step {offset day : ℤ} {now : ℚ} {y m y' m' : ℤ} (hm : 1 ≤ m ∧ m ≤ 12)
    (hnext : 12 * y' + m' = 12 * y + m + 1) (hover : MonthsOver offset day now y m)
    (hnow : midnight offset y m (min day (monthLength y m)) ≤ now) :
    MonthsOver offset day now y' m' := by
  intro y'' m'' hm'' hlt
  by_cases heq : 12 * y'' + m'' = 12 * y + m
  · have hy : y'' = y := by omega
    have hmm : m'' = m := by omega
    rw [hy, hmm]
    exact hnow
  · exact hover y'' m'' hm'' (by omega)

/-- The months before that of an instant are over, and the next month is not. -/
theorem monthsOver_civilMonth (offset day : ℤ) (now : ℚ) :
    MonthsOver offset day now (civilMonth (localDay offset now)).1
      (civilMonth (localDay offset now)).2 := by
  obtain ⟨hm, hstart, _⟩ := civilMonth_spec (localDay offset now)
  have hbounds := localDay_bounds offset now
  intro y m hm' hlt
  have hearlier := midnight_lt offset 1 hm' hm hlt (min_le_right day (monthLength y m)) le_rfl
  have hfirst : midnight offset (civilMonth (localDay offset now)).1
      (civilMonth (localDay offset now)).2 1 ≤ (86400 * localDay offset now - offset : ℤ) := by
    unfold midnight
    have hint : 86400 * (monthStart (civilMonth (localDay offset now)).1
        (civilMonth (localDay offset now)).2 + (1 - 1)) - offset ≤
          86400 * localDay offset now - offset := by omega
    exact_mod_cast hint
  have hshift : ((86400 * localDay offset now - offset : ℤ) : ℚ) =
      (86400 * (localDay offset now - 1) - offset : ℤ) + 86400 := by
    push_cast
    ring
  linarith [hbounds.1]

theorem lt_midnight_of_next (offset : ℤ) (now : ℚ) {y m d : ℤ} (hm : 1 ≤ m ∧ m ≤ 12)
    (hlt : 12 * (civilMonth (localDay offset now)).1 + (civilMonth (localDay offset now)).2 <
      12 * y + m) (hd : 1 ≤ d) : now < midnight offset y m d := by
  obtain ⟨hm', _, hend⟩ := civilMonth_spec (localDay offset now)
  have hbounds := localDay_bounds offset now
  have hlater := monthStart_add_length_le hm' hm hlt
  have hint : 86400 * (localDay offset now + 1) - offset ≤
      86400 * (monthStart y m + (d - 1)) - offset := by omega
  have hcast : ((86400 * (localDay offset now + 1) - offset : ℤ) : ℚ) ≤ midnight offset y m d := by
    unfold midnight
    exact_mod_cast hint
  linarith [hbounds.2]

end Calendar
end Library
end DarkXray
