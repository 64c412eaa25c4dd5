import Mathlib.Algebra.BigOperators.Group.List.Basic
import Mathlib.Algebra.Order.Group.Int
import Mathlib.Data.List.GetD
import Mathlib.Tactic.Linarith

/-!
# Counters that restart

A meter counts upwards and may be restarted from zero; each restart begins a new
generation.  A reading is taken in one generation and is at most what the counter
reached there.  A reader that only sees readings charges the difference to the last
one, and takes a counter that went down for a restarted one.

Main results:

- Theorem {lit}`Meter.before_add_limit_le_counted`: what was counted up to a
  generation and inside it is at most what was counted.
- Theorem {lit}`Billing.charge`: readings that arrive in order never charge more
  than was counted.
- Theorem {lit}`Billing.restart`: neither does a reader that is told of a restart in
  time.
- Theorems {lit}`lastReadings_same` and {lit}`lastReadings_new`: what one more reading adds
  to what was counted up to the last reading of each generation.
-/

namespace DarkXray
namespace Library

/-- A counter with the values it had at its restarts, oldest first. -/
structure Meter where
  finals : List ℕ
  current : ℕ
deriving DecidableEq, Repr

namespace Meter

/-- A meter that has counted nothing. -/
def zero : Meter where
  finals := []
  current := 0

/-- The running generation. -/
def generation (m : Meter) : ℕ :=
  m.finals.length

/-- Everything the meter has ever counted. -/
def counted (m : Meter) : ℕ :=
  m.finals.sum + m.current

/-- What was counted before a generation began. -/
def before (m : Meter) (g : ℕ) : ℕ :=
  (m.finals.take g).sum

/-- The highest value the counter had in a generation. -/
def limit (m : Meter) (g : ℕ) : ℕ :=
  m.finals.getD g m.current

/-- Count some more. -/
def grow (m : Meter) (n : ℕ) : Meter :=
  { m with current := m.current + n }

/-- Restart from zero. -/
def restart (m : Meter) : Meter where
  finals := m.finals ++ [m.current]
  current := 0

variable {m : Meter} {g g' n : ℕ}

/-- Growing stays in the generation. -/
@[simp]
theorem generation_grow : (m.grow n).generation = m.generation :=
  rfl

/-- A restart begins the next generation. -/
@[simp]
theorem generation_restart : m.restart.generation = m.generation + 1 := by
  simp [generation, restart]

/-- Growing leaves what came before. -/
@[simp]
theorem before_grow : (m.grow n).before g = m.before g :=
  rfl

/-- A restart leaves what came before the generations so far. -/
theorem before_restart (hg : g ≤ m.generation) : m.restart.before g = m.before g := by
  unfold before restart
  rw [List.take_append_of_le_length hg]

/-- Growing lowers no limit. -/
theorem limit_grow_ge : m.limit g ≤ (m.grow n).limit g := by
  unfold limit grow
  by_cases hg : g < m.finals.length
  · rw [List.getD_eq_getElem _ _ hg, List.getD_eq_getElem _ _ hg]
  · rw [List.getD_eq_default _ _ (not_lt.mp hg), List.getD_eq_default _ _ (not_lt.mp hg)]
    exact Nat.le_add_right _ _

/-- A restart leaves the limits of the generations so far. -/
theorem limit_restart (hg : g ≤ m.generation) : m.restart.limit g = m.limit g := by
  unfold limit restart
  unfold generation at hg
  by_cases hlt : g < m.finals.length
  · rw [List.getD_append _ _ _ _ hlt, List.getD_eq_getElem _ _ hlt, List.getD_eq_getElem _ _ hlt]
  · have heq : g = m.finals.length := by omega
    subst heq
    simp

/-- The limit of the generation is its reading. -/
theorem limit_generation : m.limit m.generation = m.current := by
  simp [limit, generation]

/-- A restart counts nothing. -/
@[simp]
theorem counted_restart : m.restart.counted = m.counted := by
  simp [counted, restart]

/-- What came before a generation and its limit come before the next one. -/
theorem before_add_limit (hg : g < m.generation) : m.before g + m.limit g = m.before (g + 1) := by
  unfold before limit
  rw [List.getD_eq_getElem _ _ hg, List.sum_take_succ _ _ hg]

/-- Later generations have more before them. -/
theorem before_mono (h : g ≤ g') : m.before g ≤ m.before g' := by
  unfold before
  rw [← List.take_append_drop g (m.finals.take g'), List.sum_append, List.take_take,
    min_eq_left h]
  exact Nat.le_add_right _ _

/-- A generation that is over is counted before every later one. -/
theorem before_add_limit_le_before (h : g < g') (hg' : g' ≤ m.generation) :
    m.before g + m.limit g ≤ m.before g' := by
  rw [before_add_limit (h.trans_le hg')]
  exact before_mono h

/-- What was counted up to a generation and inside it was counted. -/
theorem before_add_limit_le_counted (hg : g ≤ m.generation) :
    m.before g + m.limit g ≤ m.counted := by
  have hall : m.before m.generation = m.finals.sum := by simp [before, generation]
  rcases hg.lt_or_eq with hlt | rfl
  · have := before_add_limit_le_before hlt le_rfl
    unfold counted
    omega
  · rw [limit_generation, hall, counted]

end Meter

/-- A reader's account with a meter: it has charged at most what was counted up to
the value it last read, which it read in generation {lit}`base`. -/
structure Billing (m : Meter) (charged raw : ℤ) (base : ℕ) : Prop where
  bounded : charged ≤ m.before base + raw
  base_le : base ≤ m.generation
  raw_le : raw ≤ m.limit base

namespace Billing

variable {m : Meter} {charged raw x : ℤ} {base g n : ℕ}

/-- Nothing has been billed of an empty meter. -/
theorem zero : Billing .zero 0 0 0 :=
  ⟨le_rfl, le_rfl, le_rfl⟩

/-- A reader never charges more than was counted. -/
theorem charged_le (h : Billing m charged raw base) : charged ≤ m.counted := by
  have hcounted : (m.before base + m.limit base : ℤ) ≤ m.counted := by
    exact_mod_cast Meter.before_add_limit_le_counted h.base_le
  have hbounded := h.bounded
  have hraw := h.raw_le
  omega

/-- What has been billed stays right when the meter grows. -/
theorem grow (h : Billing m charged raw base) : Billing (m.grow n) charged raw base := by
  refine ⟨h.bounded, h.base_le, h.raw_le.trans ?_⟩
  exact_mod_cast Meter.limit_grow_ge

/-- A restart that the reader does not know of changes nothing for it. -/
theorem meter_restart (h : Billing m charged raw base) : Billing m.restart charged raw base := by
  refine ⟨?_, ?_, ?_⟩
  · rw [Meter.before_restart h.base_le]
    exact h.bounded
  · have := h.base_le
    rw [Meter.generation_restart]
    omega
  · rw [Meter.limit_restart h.base_le]
    exact h.raw_le

/-- A reading that is not older than the last one charges at most what was counted
since. -/
theorem charge (h : Billing m charged raw base) (hg : g ≤ m.generation) (hx : x ≤ m.limit g)
    (hraw : 0 ≤ raw) (horder : base < g ∨ (g = base ∧ raw ≤ x) ∨ x = raw) :
    Billing m (charged + if raw ≤ x then x - raw else x) x (max base g) := by
  have hbounded := h.bounded
  have hrawle := h.raw_le
  rcases lt_or_ge base g with hlt | hge
  · have hbefore : (m.before base + m.limit base : ℤ) ≤ m.before g := by
      exact_mod_cast Meter.before_add_limit_le_before hlt hg
    rw [max_eq_right hlt.le]
    refine ⟨?_, hg, hx⟩
    split <;> omega
  · rw [max_eq_left hge]
    rcases horder with hlt | ⟨rfl, hle⟩ | rfl
    · omega
    · refine ⟨?_, hg, hx⟩
      rw [if_pos hle]
      omega
    · refine ⟨?_, h.base_le, hrawle⟩
      rw [if_pos le_rfl]
      omega

/-- A reader that is told that generation {lit}`g` is over starts again from zero,
provided that it has not read a later generation yet. -/
theorem restart (h : Billing m charged raw base) (hg : g < m.generation)
    (horder : base ≤ g ∨ raw = 0) : Billing m charged 0 (max base (g + 1)) := by
  have hbounded := h.bounded
  have hrawle := h.raw_le
  rcases le_or_gt base g with hle | hgt
  · have hbefore : (m.before base + m.limit base : ℤ) ≤ m.before (g + 1) := by
      exact_mod_cast Meter.before_add_limit_le_before (Nat.lt_succ_of_le hle) hg
    rw [max_eq_right (by omega)]
    exact ⟨by omega, hg, by positivity⟩
  · have hzero : raw = 0 := by omega
    rw [max_eq_left hgt]
    exact ⟨by omega, h.base_le, by positivity⟩

end Billing

/-- What was counted up to the last reading of each generation, for readings with the newest
first; the generation {lit}`taken` is counted already. -/
def lastReadings : Option ℕ → List (ℕ × ℕ) → ℕ
  | _, [] => 0
  | taken, (g, x) :: readings =>
      if taken = some g then lastReadings taken readings
      else x + lastReadings (some g) readings

section Readings

variable {g g' x y : ℕ} {readings : List (ℕ × ℕ)}

/-- The first reading counts as a whole. -/
theorem lastReadings_cons_none :
    lastReadings none ((g, x) :: readings) = x + lastReadings (some g) readings := by
  simp [lastReadings]

/-- A reading of the same generation replaces the one before. -/
theorem lastReadings_same :
    lastReadings none ((g, y) :: (g, x) :: readings) + x =
      lastReadings none ((g, x) :: readings) + y := by
  simp only [lastReadings, reduceCtorEq, if_false, if_true]
  omega

/-- A reading of another generation counts from its first unit. -/
theorem lastReadings_new (h : g ≠ g') :
    lastReadings none ((g', y) :: (g, x) :: readings) =
      y + lastReadings none ((g, x) :: readings) := by
  simp [lastReadings, Ne.symm h]

end Readings

end Library
end DarkXray
