import Mathlib.Data.List.Sort
import Mathlib.Data.String.Basic

/-!
# Association lists in the order of their keys

A dictionary with distinct keys has one list of entries in which the keys ascend.  That
list does not depend on the order in which the entries were made.

Main results:

- Theorem {lit}`byKey_eq_of_perm`: two orders of the same entries sort to one list.
- Theorem {lit}`byKey_mapValues`: sorting commutes with a change of the values.
- Theorem {lit}`byKey_byKey`: a sorted list is its own sorted list.
- Theorem {lit}`lookup_eq_of_perm`: a lookup does not depend on the order of the entries.
-/

namespace DarkXray
namespace Library

/-- Two entries of a list with distinct keys that have the same key are the same entry. -/
theorem entry_unique {κ ν : Type*} {l : List (κ × ν)} (hl : (l.map Prod.fst).Nodup) {a b : κ × ν}
    (ha : a ∈ l) (hb : b ∈ l) (h : a.1 = b.1) : a = b :=
  List.inj_on_of_nodup_map hl ha hb h

variable {κ ν : Type*} [LinearOrder κ]

/-- The entries in the order of their keys. -/
def byKey (l : List (κ × ν)) : List (κ × ν) :=
  l.insertionSort fun a b => a.1 ≤ b.1

instance keyOrderTotal : Std.Total fun a b : κ × ν => a.1 ≤ b.1 :=
  ⟨fun a b => le_total a.1 b.1⟩

instance keyOrderTrans : IsTrans (κ × ν) fun a b => a.1 ≤ b.1 :=
  ⟨fun _ _ _ hab hbc => le_trans hab hbc⟩

/-- Sorting by keys only reorders. -/
theorem perm_byKey (l : List (κ × ν)) : (byKey l).Perm l :=
  List.perm_insertionSort _ l

/-- Sorted fields ascend. -/
theorem byKey_ascends (l : List (κ × ν)) : (byKey l).Pairwise fun a b => a.1 ≤ b.1 :=
  List.pairwise_insertionSort _ l

/-- Sorting neither adds nor removes a field. -/
@[simp]
theorem mem_byKey {l : List (κ × ν)} {e : κ × ν} : e ∈ byKey l ↔ e ∈ l :=
  (perm_byKey l).mem_iff

/-- Sorting repeats no key. -/
theorem nodup_keys_byKey {l : List (κ × ν)} :
    ((byKey l).map Prod.fst).Nodup ↔ (l.map Prod.fst).Nodup :=
  ((perm_byKey l).map Prod.fst).nodup_iff

/-- Two orders of the same entries sort to one list. -/
theorem byKey_eq_of_perm {l l' : List (κ × ν)} (hl : (l.map Prod.fst).Nodup) (h : l.Perm l') :
    byKey l = byKey l' := by
  have hperm : (byKey l).Perm (byKey l') := ((perm_byKey l).trans h).trans (perm_byKey l').symm
  refine hperm.eq_of_pairwise ?_ (byKey_ascends l) (byKey_ascends l')
  intro a b ha hb hab hba
  have ha' : a ∈ l := mem_byKey.mp ha
  have hb' : b ∈ l := h.mem_iff.mpr (mem_byKey.mp hb)
  exact entry_unique hl ha' hb' (le_antisymm hab hba)

/-- Sorting commutes with a change of the values. -/
theorem byKey_mapValues {μ : Type*} (l : List (κ × ν)) (f : κ × ν → κ × μ)
    (hf : ∀ e, (f e).1 = e.1) : (byKey l).map f = byKey (l.map f) := by
  refine List.map_insertionSort _ _ f l ?_
  intro a _ b _
  rw [hf, hf]

/-- A sorted list is its own sorted list. -/
@[simp]
theorem byKey_byKey (l : List (κ × ν)) : byKey (byKey l) = byKey l :=
  (byKey_ascends l).insertionSort_eq

/-! ## Lookups -/

section Lookups

variable {κ ν μ : Type*} [DecidableEq κ]

/-- In a list with distinct keys, the value of a key is that of its entry. -/
theorem lookup_eq_some_iff {l : List (κ × ν)} (hl : (l.map Prod.fst).Nodup) {k : κ} {v : ν} :
    l.lookup k = some v ↔ (k, v) ∈ l := by
  induction l with
  | nil => simp
  | cons e l ih =>
      rw [List.map_cons, List.nodup_cons] at hl
      rw [List.lookup_cons, List.mem_cons]
      by_cases hk : k = e.1
      · subst hk
        have hout : (e.1, v) ∉ l := fun h => hl.1 (List.mem_map.mpr ⟨_, h, rfl⟩)
        simp [hout, Prod.ext_iff, eq_comm]
      · have hbeq : (k == e.1) = false := by simpa using hk
        have hne : (k, v) ≠ e := by
          rintro rfl
          exact hk rfl
        simp [hbeq, hne, ih hl.2]

/-- Looking up does not depend on the order of distinct keys. -/
theorem lookup_eq_of_perm {l l' : List (κ × ν)} (hl : (l.map Prod.fst).Nodup) (h : l.Perm l')
    (k : κ) : l.lookup k = l'.lookup k := by
  have hl' : (l'.map Prod.fst).Nodup := (h.map Prod.fst).nodup_iff.mp hl
  refine Option.ext fun v => ?_
  rw [lookup_eq_some_iff hl, lookup_eq_some_iff hl', h.mem_iff]

/-- Looking up in changed values. -/
theorem lookup_mapValues (l : List (κ × ν)) (f : ν → μ) (k : κ) :
    (l.map fun e => (e.1, f e.2)).lookup k = (l.lookup k).map f := by
  induction l with
  | nil => rfl
  | cons e l ih =>
      rw [List.map_cons, List.lookup_cons, List.lookup_cons]
      cases hk : k == e.1 with
      | false => exact ih
      | true => rfl

/-- A key that is not there is not found. -/
theorem lookup_eq_none_iff {l : List (κ × ν)} {k : κ} :
    l.lookup k = none ↔ k ∉ l.map Prod.fst := by
  induction l with
  | nil => simp
  | cons e l ih =>
      rw [List.lookup_cons, List.map_cons, List.mem_cons]
      by_cases hk : k = e.1
      · simp [hk]
      · have hbeq : (k == e.1) = false := by simpa using hk
        simp [hbeq, hk, ih]

/-- The other entries and the entry of a key are all entries. -/
theorem perm_others_append {l : List (κ × ν)} (hl : (l.map Prod.fst).Nodup) {k : κ} {v : ν}
    (h : l.lookup k = some v) : (l.filter (fun e => e.1 ≠ k) ++ [(k, v)]).Perm l := by
  induction l with
  | nil => simp at h
  | cons e l ih =>
      rw [List.map_cons, List.nodup_cons] at hl
      rw [List.lookup_cons] at h
      by_cases hk : k = e.1
      · subst hk
        simp only [beq_self_eq_true, Option.some.injEq] at h
        subst h
        have hall : l.filter (fun x => x.1 ≠ e.1) = l := by
          refine List.filter_eq_self.mpr fun x hx => ?_
          have hne : x.1 ≠ e.1 := by
            intro heq
            exact hl.1 (heq ▸ List.mem_map_of_mem hx)
          simpa using hne
        rw [List.filter_cons_of_neg (by simp), hall]
        exact List.perm_append_singleton _ _
      · have hbeq : (k == e.1) = false := by simpa using hk
        rw [hbeq] at h
        rw [List.filter_cons_of_pos (by simpa using Ne.symm hk), List.cons_append]
        exact (ih hl.2 h).cons e

end Lookups

end Library
end DarkXray
