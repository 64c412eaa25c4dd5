import Mathlib.Data.List.DropRight

/-!
# Lines of a growing list

A list that is split at a separator has complete parts, which a separator ends, and one that is
unfinished.  A list that grows at its end only adds complete parts, and it suffices to keep the
unfinished one.

Main results:

- Theorem {lit}`complete_append`: what more items add to the complete parts.
- Theorem {lit}`added_trans`: the parts added in two steps are those added in each.
- Theorem {lit}`complete_prepend`: what items without a separator in front change.
- Theorem {lit}`rtake_append`: the end of a list, from the end of its first part.
-/

namespace DarkXray
namespace Library

variable {α : Type} [DecidableEq α]

/-- The parts that a separator ends. -/
def complete (sep : α) (xs : List α) : List (List α) :=
  (xs.splitOn sep).dropLast

/-- The part after the last separator. -/
def unfinished (sep : α) (xs : List α) : List α :=
  (xs.splitOn sep).getLast (List.splitOn_ne_nil sep xs)

section Parts

variable {sep : α} {xs ys front : List α}

/-- Every list ends with an unfinished part, and has a complete one before it or none. -/
theorem parts_induction {P : List α → Prop} (sep : α) (hlast : ∀ xs, sep ∉ xs → P xs)
    (hpart : ∀ part xs, sep ∉ part → P xs → P (part ++ sep :: xs)) (xs : List α) : P xs := by
  induction hn : xs.length using Nat.strong_induction_on generalizing xs with
  | _ n ih =>
      by_cases hmem : sep ∈ xs
      · obtain ⟨part, rest, rfl, hpart'⟩ := List.eq_append_cons_of_mem hmem
        refine hpart part rest hpart' (ih rest.length ?_ rest rfl)
        simp only [List.length_append, List.length_cons] at hn
        omega
      · exact hlast xs hmem

/-- Without a separator no line is complete. -/
theorem complete_of_not_mem (h : sep ∉ xs) : complete sep xs = [] := by
  simp [complete, List.splitOn_eq_singleton h]

/-- Without a separator everything is unfinished. -/
theorem unfinished_of_not_mem (h : sep ∉ xs) : unfinished sep xs = xs := by
  simp [unfinished, List.splitOn_eq_singleton h]

/-- The first separator completes the first line. -/
theorem complete_append_cons (h : sep ∉ front) (xs : List α) :
    complete sep (front ++ sep :: xs) = front :: complete sep xs := by
  unfold complete
  rw [List.splitOn_append_cons_self_of_not_mem h,
    List.dropLast_cons_of_ne_nil (List.splitOn_ne_nil sep xs)]

/-- The first line says nothing about the unfinished one. -/
theorem unfinished_append_cons (h : sep ∉ front) (xs : List α) :
    unfinished sep (front ++ sep :: xs) = unfinished sep xs := by
  simp only [unfinished, List.splitOn_append_cons_self_of_not_mem h]
  exact List.getLast_cons (List.splitOn_ne_nil sep xs)

/-- Nothing has no complete line. -/
@[simp]
theorem complete_nil : complete sep ([] : List α) = [] :=
  complete_of_not_mem List.not_mem_nil

/-- Nothing is unfinished. -/
@[simp]
theorem unfinished_nil : unfinished sep ([] : List α) = [] :=
  unfinished_of_not_mem List.not_mem_nil

/-- The unfinished line has no separator. -/
theorem not_mem_unfinished (sep : α) (xs : List α) : sep ∉ unfinished sep xs := by
  induction xs using parts_induction sep with
  | hlast xs h => rwa [unfinished_of_not_mem h]
  | hpart part xs h ih => rwa [unfinished_append_cons h]

/-- More items complete the unfinished part, and may add others. -/
theorem complete_append (xs ys : List α) :
    complete sep (xs ++ ys) = complete sep xs ++ complete sep (unfinished sep xs ++ ys) := by
  induction xs using parts_induction sep with
  | hlast xs h => rw [complete_of_not_mem h, unfinished_of_not_mem h, List.nil_append]
  | hpart part xs h ih =>
      rw [List.append_assoc, List.cons_append, complete_append_cons h, complete_append_cons h,
        unfinished_append_cons h, ih, List.cons_append]

/-- The unfinished line depends on what follows and on the line before it. -/
theorem unfinished_append (xs ys : List α) :
    unfinished sep (xs ++ ys) = unfinished sep (unfinished sep xs ++ ys) := by
  induction xs using parts_induction sep with
  | hlast xs h => rw [unfinished_of_not_mem h]
  | hpart part xs h ih =>
      rw [List.append_assoc, List.cons_append, unfinished_append_cons h, unfinished_append_cons h,
        ih]

/-- The complete parts that a longer list has in addition. -/
def added (sep : α) (xs ys : List α) : List (List α) :=
  (complete sep ys).drop (complete sep xs).length

/-- Nothing is added to the same text. -/
@[simp]
theorem added_self (xs : List α) : added sep xs xs = [] :=
  List.drop_length

/-- The lines that an extension adds. -/
theorem added_append (xs ys : List α) :
    added sep xs (xs ++ ys) = complete sep (unfinished sep xs ++ ys) := by
  rw [added, complete_append, List.drop_left]

/-- The parts added in two steps are those added in each. -/
theorem added_trans {xs ys zs : List α} (hxy : xs <+: ys) (hyz : ys <+: zs) :
    added sep xs zs = added sep xs ys ++ added sep ys zs := by
  obtain ⟨more, rfl⟩ := hxy
  obtain ⟨last, rfl⟩ := hyz
  have hlength : (complete sep xs).length ≤ (complete sep (xs ++ more)).length := by
    rw [complete_append, List.length_append]
    exact Nat.le_add_right _ _
  rw [added_append (xs ++ more), added, added, complete_append (xs ++ more),
    List.drop_append_of_le_length hlength]

/-- A first part without items ends at once. -/
theorem head?_of_complete {parts : List (List α)} (h : complete sep xs = [] :: parts) :
    xs.head? = some sep := by
  by_cases hmem : sep ∈ xs
  · obtain ⟨part, rest, rfl, hpart⟩ := List.eq_append_cons_of_mem hmem
    rw [complete_append_cons hpart] at h
    rw [(List.cons.inj h).1, List.nil_append, List.head?_cons]
  · rw [complete_of_not_mem hmem] at h
    cases h

/-- Items without a separator only change the first part. -/
theorem complete_prepend (h : sep ∉ front) (xs : List α) :
    complete sep (front ++ xs) = (complete sep xs).modifyHead (front ++ ·) := by
  by_cases hmem : sep ∈ xs
  · obtain ⟨part, rest, rfl, hpart⟩ := List.eq_append_cons_of_mem hmem
    have hboth : sep ∉ front ++ part := by simp [h, hpart]
    rw [← List.append_assoc, complete_append_cons hboth, complete_append_cons hpart,
      List.modifyHead_cons]
  · have hboth : sep ∉ front ++ xs := by simp [h, hmem]
    rw [complete_of_not_mem hboth, complete_of_not_mem hmem, List.modifyHead_nil]

/-- What stands in front matters only until a line is complete. -/
theorem unfinished_prepend (h : sep ∉ front) (xs : List α) :
    unfinished sep (front ++ xs) =
      if complete sep xs = [] then front ++ xs else unfinished sep xs := by
  by_cases hmem : sep ∈ xs
  · obtain ⟨part, rest, rfl, hpart⟩ := List.eq_append_cons_of_mem hmem
    have hboth : sep ∉ front ++ part := by simp [h, hpart]
    rw [← List.append_assoc, unfinished_append_cons hboth, unfinished_append_cons hpart,
      complete_append_cons hpart, if_neg (List.cons_ne_nil _ _)]
  · have hboth : sep ∉ front ++ xs := by simp [h, hmem]
    rw [unfinished_of_not_mem hboth, complete_of_not_mem hmem, if_pos rfl]

end Parts

omit [DecidableEq α] in
/-- The end of a list, from the end of its first part. -/
theorem rtake_append (n : ℕ) (xs ys : List α) :
    (xs.rtake n ++ ys).rtake n = (xs ++ ys).rtake n := by
  simp only [List.rtake, List.drop_append, List.length_append, List.length_drop,
    List.drop_drop]
  congr 2
  all_goals omega

omit [DecidableEq α] in
/-- A short list is its own end. -/
theorem rtake_of_length_le {n : ℕ} {xs : List α} (h : xs.length ≤ n) : xs.rtake n = xs := by
  rw [List.rtake, Nat.sub_eq_zero_of_le h, List.drop_zero]

omit [DecidableEq α] in
/-- The length of an end. -/
theorem length_rtake {n : ℕ} {xs : List α} (h : n ≤ xs.length) : (xs.rtake n).length = n := by
  rw [List.rtake, List.length_drop]
  omega

end Library
end DarkXray
