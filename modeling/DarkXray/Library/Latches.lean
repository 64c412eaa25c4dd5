import Mathlib.Data.Finset.Card

/-!
# Switches turned by evidence

A switch is turned on by more pieces of evidence than a limit allows, once the sources are
ready, and turned off only if nothing can be missing.  Otherwise it stays as it is.

Main results:

- Theorem {lit}`latch_on`: a switch that is turned on has more evidence than the limit.
- Theorem {lit}`latch_off`: a switch is turned off only if the evidence is complete.
- Theorem {lit}`latch_mono`: more evidence never turns a switch off.
-/

namespace DarkXray
namespace Library

variable {α : Type*}

/-- The next position of a switch. -/
def latch (limit : ℤ) (ready complete : Bool) (evidence : Finset α) (on : Bool) : Bool :=
  if ready && decide (limit < evidence.card) then true
  else if !complete then on
  else false

variable {limit : ℤ} {ready complete on : Bool} {evidence evidence' : Finset α}

/-- A switch that is turned on has more evidence than the limit. -/
theorem latch_on (hoff : on = false) (h : latch limit ready complete evidence on = true) :
    ready = true ∧ limit < evidence.card := by
  subst hoff
  unfold latch at h
  split_ifs at h with hmore
  simpa using hmore

/-- A switch is turned off only if the evidence is complete. -/
theorem latch_off (hon : on = true) (h : latch limit ready complete evidence on = false) :
    complete = true := by
  subst hon
  unfold latch at h
  split_ifs at h with hmore hcomplete
  simpa using hcomplete

/-- More evidence never turns a switch off. -/
theorem latch_mono (hsub : evidence ⊆ evidence')
    (h : latch limit ready complete evidence on = true) :
    latch limit ready complete evidence' on = true := by
  have hcard := Finset.card_le_card hsub
  unfold latch at h ⊢
  by_cases hmore : ready = true ∧ limit < evidence'.card
  · simp [hmore]
  · have hless : ¬ (ready = true ∧ limit < evidence.card) := by
      rintro ⟨hready, hlimit⟩
      exact hmore ⟨hready, by omega⟩
    simp only [Bool.and_eq_true, decide_eq_true_eq, hmore, hless, if_false] at h ⊢
    exact h

end Library
end DarkXray
