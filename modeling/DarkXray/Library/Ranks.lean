import Mathlib.Order.Lattice
import Mathlib.Data.List.Basic
import Mathlib.Data.List.Nodup
import Mathlib.Data.List.Perm.Subperm

/-!
# Ranks in a sorted list

Whoever is among the first of a sorted list has few elements before it.

Main results:

- Theorem {lit}`mem_take_iff`: the first {lit}`n` elements of a strictly sorted list are those
  with fewer than {lit}`n` smaller ones.
- Theorem {lit}`countP_le_of_subset`: a count does not grow when elements leave.
-/

namespace DarkXray
namespace Library

variable {α : Type*}

section Sorted

variable [LinearOrder α] {l : List α} {x : α} {n : ℕ}

theorem countP_lt_head {a : α} (h : (a :: l).Pairwise (· < ·)) :
    l.countP (fun y => y < a) = 0 := by
  rw [List.countP_eq_zero]
  intro y hy
  have hlt := (List.pairwise_cons.mp h).1 y hy
  simpa using hlt.le

/-- The first {lit}`n` elements have fewer than {lit}`n` smaller ones. -/
theorem mem_take_iff (h : l.Pairwise (· < ·)) :
    x ∈ l.take n ↔ x ∈ l ∧ l.countP (fun y => y < x) < n := by
  induction l generalizing n with
  | nil => simp
  | cons a l ih =>
      obtain ⟨hhead, htail⟩ := List.pairwise_cons.mp h
      cases n with
      | zero => simp
      | succ n =>
          rw [List.take_succ_cons, List.mem_cons, List.mem_cons, ih htail, List.countP_cons]
          by_cases hx : x = a
          · subst hx
            rw [countP_lt_head h]
            simp
          · by_cases hmem : x ∈ l
            · have hlt := hhead x hmem
              simp [hx, hmem, hlt]
            · simp [hx, hmem]

/-- An element that is not among the first {lit}`n` comes after {lit}`n` others. -/
theorem le_countP_of_not_mem_take (h : l.Pairwise (· < ·)) (hx : x ∈ l) (hn : x ∉ l.take n) :
    n ≤ (l.take n).countP (fun y => y < x) := by
  have hlong : n ≤ l.length := by
    by_contra hshort
    rw [List.take_of_length_le (by omega)] at hn
    exact hn hx
  have hdrop : x ∈ l.drop n := by
    rw [← List.take_append_drop n l] at hx
    exact (List.mem_append.mp hx).resolve_left hn
  have hall : ∀ y ∈ l.take n, decide (y < x) = true := by
    intro y hy
    rw [← List.take_append_drop n l] at h
    exact decide_eq_true ((List.pairwise_append.mp h).2.2 y hy x hdrop)
  rw [List.countP_eq_length.mpr hall, List.length_take]
  omega

end Sorted

/-- Fewer elements, smaller counts. -/
theorem countP_le_of_subset {l l' : List α} (hnodup : l'.Nodup) (hsub : ∀ x ∈ l', x ∈ l)
    (p : α → Bool) : l'.countP p ≤ l.countP p := by
  rw [List.countP_eq_length_filter, List.countP_eq_length_filter]
  apply List.Subperm.length_le
  apply List.Nodup.subperm (hnodup.filter p)
  intro x hx
  obtain ⟨hmem, hp⟩ := List.mem_filter.mp hx
  exact List.mem_filter.mpr ⟨hsub x hmem, hp⟩

/-- A list without repetitions is no longer than one that has all of its elements. -/
theorem length_le_of_subset {l l' : List α} (hnodup : l'.Nodup) (hsub : ∀ x ∈ l', x ∈ l) :
    l'.length ≤ l.length :=
  (hnodup.subperm hsub).length_le

end Library
end DarkXray
