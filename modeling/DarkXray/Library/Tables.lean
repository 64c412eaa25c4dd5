import Mathlib.Algebra.BigOperators.Group.List.Basic
import Mathlib.Algebra.Order.BigOperators.Group.List
import Mathlib.Algebra.Order.Group.Int
import Mathlib.Data.List.Nodup

/-!
# Keyed tables

A table with a primary key is a list of rows whose keys are pairwise distinct;
the distinctness is a field of the table, so a table with a duplicate key cannot
be built.  Rows keep their insertion order.

Main results:

- Theorem {lit}`Table.get?_eq_some_iff`: a lookup finds exactly the stored row.
- Theorems {lit}`Table.get?_insert`, {lit}`Table.get?_update`,
  {lit}`Table.get?_upsert` and {lit}`Table.get?_erase`: what every operation does
  to every key.
- Theorems {lit}`Table.get?_foldl_of_mem` and {lit}`Table.get?_foldl_of_not_mem`: what
  a fold over distinct keys does to every key.
- Theorems {lit}`Table.total_insert`, {lit}`Table.total_update` and
  {lit}`Table.total_erase`: what every operation does to a sum over the rows.
-/

namespace DarkXray
namespace Library

/-- A table with primary key {lit}`κ` and rows {lit}`ρ`. -/
structure Table (κ ρ : Type*) where
  rows : List (κ × ρ)
  nodupKeys : (rows.map Prod.fst).Nodup

namespace Table

variable {κ ρ M : Type*}

/-- The table without rows. -/
def empty : Table κ ρ where
  rows := []
  nodupKeys := List.nodup_nil

/-- Apply a function to every row; the keys stay. -/
def mapRows (t : Table κ ρ) (g : κ → ρ → ρ) : Table κ ρ where
  rows := t.rows.map fun r => (r.1, g r.1 r.2)
  nodupKeys := by
    simpa [List.map_map, Function.comp_def] using t.nodupKeys

/-- Keep the rows that satisfy a test. -/
def filterRows (t : Table κ ρ) (p : κ → ρ → Bool) : Table κ ρ where
  rows := t.rows.filter fun r => p r.1 r.2
  nodupKeys := (List.filter_sublist.map Prod.fst).nodup t.nodupKeys

/-- Sum of a quantity over all rows. -/
def total [AddCommMonoid M] (t : Table κ ρ) (f : κ → ρ → M) : M :=
  (t.rows.map fun r => f r.1 r.2).sum

variable [DecidableEq κ]

/-- The row stored under a key. -/
def get? (t : Table κ ρ) (k : κ) : Option ρ :=
  (t.rows.find? fun r => r.1 = k).map Prod.snd

/-- Append a row under a new key; a taken key leaves the table as it is. -/
def insert (t : Table κ ρ) (k : κ) (r : ρ) : Table κ ρ :=
  if h : k ∈ t.rows.map Prod.fst then t
  else
    { rows := t.rows ++ [(k, r)]
      nodupKeys := by
        rw [List.map_append]
        exact List.Nodup.append t.nodupKeys (by simp) (by simpa using h) }

/-- Change the row under one key, if there is one. -/
def update (t : Table κ ρ) (k : κ) (g : ρ → ρ) : Table κ ρ :=
  t.mapRows fun k' r => if k' = k then g r else r

/-- Insert a row, or change the one already stored under its key. -/
def upsert (t : Table κ ρ) (k : κ) (r : ρ) (g : ρ → ρ) : Table κ ρ :=
  match t.get? k with
  | none => t.insert k r
  | some _ => t.update k g

/-- Remove the row under one key. -/
def erase (t : Table κ ρ) (k : κ) : Table κ ρ :=
  t.filterRows fun k' _ => k' ≠ k

/-! ## Lookups -/

/-- A lookup finds exactly the stored row. -/
theorem get?_eq_some_iff {t : Table κ ρ} {k : κ} {r : ρ} :
    t.get? k = some r ↔ (k, r) ∈ t.rows := by
  constructor
  · intro h
    obtain ⟨⟨k', r'⟩, hfind, rfl⟩ := Option.map_eq_some_iff.mp h
    have hk : k' = k := by simpa using List.find?_some hfind
    exact hk ▸ List.mem_of_find?_eq_some hfind
  · intro hmem
    unfold get?
    cases hfind : t.rows.find? fun r => r.1 = k with
    | none =>
        have := List.find?_eq_none.mp hfind (k, r) hmem
        simp at this
    | some row =>
        have hkey : row.1 = k := by simpa using List.find?_some hfind
        have hrow := List.inj_on_of_nodup_map t.nodupKeys
          (List.mem_of_find?_eq_some hfind) hmem hkey
        simp [hrow]

/-- A key without a row occurs in no row. -/
theorem get?_eq_none_iff {t : Table κ ρ} {k : κ} :
    t.get? k = none ↔ k ∉ t.rows.map Prod.fst := by
  unfold get?
  rw [Option.map_eq_none_iff, List.find?_eq_none]
  simp only [decide_eq_true_eq, List.mem_map, not_exists, not_and]

@[simp]
theorem get?_empty (k : κ) : (empty : Table κ ρ).get? k = none :=
  rfl

@[simp]
theorem get?_mapRows (t : Table κ ρ) (g : κ → ρ → ρ) (k : κ) :
    (t.mapRows g).get? k = (t.get? k).map (g k) := by
  cases h : t.get? k with
  | none =>
      rw [get?_eq_none_iff] at h
      simpa [get?_eq_none_iff, mapRows, List.map_map, Function.comp_def] using h
  | some r =>
      rw [Option.map_some, get?_eq_some_iff]
      exact List.mem_map.mpr ⟨(k, r), get?_eq_some_iff.mp h, rfl⟩

/-- Inserting under a new key adds exactly that row. -/
theorem get?_insert {t : Table κ ρ} {k : κ} (hk : t.get? k = none) (r : ρ) (k' : κ) :
    (t.insert k r).get? k' = if k' = k then some r else t.get? k' := by
  have hnot := get?_eq_none_iff.mp hk
  have hrows : (t.insert k r).rows = t.rows ++ [(k, r)] := by
    simp only [insert, dif_neg hnot]
  by_cases hkk : k' = k
  · subst hkk
    rw [if_pos rfl, get?_eq_some_iff, hrows]
    simp
  · rw [if_neg hkk]
    unfold get?
    rw [hrows, List.find?_append]
    cases t.rows.find? fun r => r.1 = k' with
    | none => simp [Ne.symm hkk]
    | some row => simp

/-- An insert never changes a row that is already stored. -/
theorem get?_insert_of_some {t : Table κ ρ} {k' : κ} {r' : ρ} (h : t.get? k' = some r') (k : κ)
    (r : ρ) : (t.insert k r).get? k' = some r' := by
  cases hk : t.get? k with
  | none =>
      have hne : k' ≠ k := by
        rintro rfl
        rw [hk] at h
        cases h
      rw [get?_insert hk, if_neg hne, h]
  | some old =>
      have htaken : k ∈ t.rows.map Prod.fst := by
        by_contra hnot
        rw [get?_eq_none_iff.mpr hnot] at hk
        cases hk
      rw [insert, dif_pos htaken, h]

@[simp]
theorem get?_update (t : Table κ ρ) (k : κ) (g : ρ → ρ) (k' : κ) :
    (t.update k g).get? k' = if k' = k then (t.get? k').map g else t.get? k' := by
  unfold update
  rw [get?_mapRows]
  split
  · rfl
  · exact Option.map_id_apply

/-- An upsert stores the new row, or the changed old one, under its key only. -/
theorem get?_upsert (t : Table κ ρ) (k : κ) (r : ρ) (g : ρ → ρ) (k' : κ) :
    (t.upsert k r g).get? k' =
      if k' = k then some (((t.get? k).map g).getD r) else t.get? k' := by
  unfold upsert
  cases h : t.get? k with
  | none =>
      rw [get?_insert h]
      rfl
  | some old =>
      rw [get?_update]
      split <;> rename_i hkk
      · simp [hkk, h]
      · rfl

/-- Writing under a key adds at most one row. -/
theorem length_upsert_le (t : Table κ ρ) (k : κ) (r : ρ) (g : ρ → ρ) :
    (t.upsert k r g).rows.length ≤ t.rows.length + 1 := by
  unfold upsert
  split
  · unfold insert
    split
    · exact Nat.le_succ _
    · simp
  · simp [update, mapRows]

/-- The rows kept by a test are the old rows that pass it. -/
theorem get?_filterRows (t : Table κ ρ) (p : κ → ρ → Bool) (k : κ) :
    (t.filterRows p).get? k = (t.get? k).filter (p k) := by
  cases h : t.get? k with
  | none =>
      rw [get?_eq_none_iff] at h
      simp only [Option.filter_none, get?_eq_none_iff]
      exact fun hmem => h ((List.filter_sublist.map Prod.fst).subset hmem)
  | some r =>
      have hmem := get?_eq_some_iff.mp h
      by_cases hp : p k r = true
      · rw [Option.filter_some, if_pos hp, get?_eq_some_iff]
        exact List.mem_filter.mpr ⟨hmem, hp⟩
      · rw [Option.filter_some, if_neg hp]
        cases hk : (t.filterRows p).get? k with
        | none => rfl
        | some r' =>
            obtain ⟨hmem', hp'⟩ := List.mem_filter.mp (get?_eq_some_iff.mp hk)
            have hr : r' = r := by
              have := h.symm.trans (get?_eq_some_iff.mpr hmem')
              exact (Option.some.inj this).symm
            exact absurd (hr ▸ hp') hp

@[simp]
theorem get?_erase (t : Table κ ρ) (k k' : κ) :
    (t.erase k).get? k' = if k' = k then none else t.get? k' := by
  unfold erase
  rw [get?_filterRows]
  split <;> rename_i hkk
  · cases t.get? k' <;> simp [hkk]
  · cases t.get? k' <;> simp [hkk]

/-! ## Folds over distinct keys -/

section Folds

variable {β : Type*} {rows : List (κ × β)} {step : Table κ ρ → κ × β → Table κ ρ}

/-- Steps that each change one key leave every key alone that none of them names. -/
theorem get?_foldl_of_not_mem (hother : ∀ t x k, k ≠ x.1 → (step t x).get? k = t.get? k) {k : κ}
    (hk : k ∉ rows.map Prod.fst) (t : Table κ ρ) : (rows.foldl step t).get? k = t.get? k := by
  induction rows generalizing t with
  | nil => rfl
  | cons x rows ih =>
      rw [List.map_cons, List.mem_cons, not_or] at hk
      rw [List.foldl_cons, ih hk.2, hother t x k hk.1]

/-- Steps with distinct keys change the row of each key once. -/
theorem get?_foldl_of_mem {f : κ → β → Option ρ → Option ρ}
    (hother : ∀ t x k, k ≠ x.1 → (step t x).get? k = t.get? k)
    (hself : ∀ t x, (step t x).get? x.1 = f x.1 x.2 (t.get? x.1))
    (hnodup : (rows.map Prod.fst).Nodup) {k : κ} {b : β} (hmem : (k, b) ∈ rows)
    (t : Table κ ρ) : (rows.foldl step t).get? k = f k b (t.get? k) := by
  induction rows generalizing t with
  | nil => simp at hmem
  | cons x rows ih =>
      rw [List.map_cons, List.nodup_cons] at hnodup
      rw [List.foldl_cons]
      rcases List.mem_cons.mp hmem with hx | hx
      · subst hx
        rw [get?_foldl_of_not_mem hother hnodup.1, hself]
      · have hne : k ≠ x.1 := fun hk => hnodup.1 (hk ▸ List.mem_map_of_mem hx)
        rw [ih hnodup.2 hx, hother t x k hne]

end Folds

/-! ## Sums over the rows -/

section Totals

variable [AddCommMonoid M]

omit [DecidableEq κ] in
@[simp]
theorem total_empty (f : κ → ρ → M) : (empty : Table κ ρ).total f = 0 :=
  rfl

omit [DecidableEq κ] in
/-- Sums of quantities that agree on every stored row are equal. -/
theorem total_congr {t : Table κ ρ} {f g : κ → ρ → M}
    (h : ∀ k r, (k, r) ∈ t.rows → f k r = g k r) : t.total f = t.total g := by
  unfold total
  exact congrArg List.sum (List.map_congr_left fun r hr => h r.1 r.2 hr)

omit [DecidableEq κ] in
theorem total_mapRows (t : Table κ ρ) (g : κ → ρ → ρ) (f : κ → ρ → M) :
    (t.mapRows g).total f = t.total fun k r => f k (g k r) := by
  simp [total, mapRows, List.map_map, Function.comp_def]

omit [DecidableEq κ] in
/-- Dropping rows that contribute nothing keeps the sum. -/
theorem total_filterRows {t : Table κ ρ} {p : κ → ρ → Bool} {f : κ → ρ → M}
    (h : ∀ k r, (k, r) ∈ t.rows → p k r = false → f k r = 0) :
    (t.filterRows p).total f = t.total f := by
  unfold total filterRows
  dsimp only
  have hrows : ∀ x ∈ t.rows, p x.1 x.2 = false → f x.1 x.2 = 0 := fun x hx => h x.1 x.2 hx
  clear h
  revert hrows
  induction t.rows with
  | nil => exact fun _ => rfl
  | cons x rows ih =>
      intro hrows
      rw [List.forall_mem_cons] at hrows
      by_cases hx : p x.1 x.2 = true
      · rw [List.filter_cons, if_pos hx, List.map_cons, List.sum_cons, List.map_cons, List.sum_cons,
          ih hrows.2]
      · rw [List.filter_cons, if_neg hx, List.map_cons, List.sum_cons,
          hrows.1 (Bool.eq_false_of_not_eq_true hx), zero_add, ih hrows.2]

/-- A new row adds its own contribution. -/
theorem total_insert {t : Table κ ρ} {k : κ} (hk : t.get? k = none) (r : ρ) (f : κ → ρ → M) :
    (t.insert k r).total f = t.total f + f k r := by
  have hnot := get?_eq_none_iff.mp hk
  simp [total, insert, dif_neg hnot]

omit [DecidableEq κ] in
private theorem sum_replace {rows : List (κ × ρ)} {k : κ} {r : ρ} {a b : κ → ρ → M}
    (hnodup : (rows.map Prod.fst).Nodup) (hmem : (k, r) ∈ rows)
    (hagree : ∀ k' r', k' ≠ k → a k' r' = b k' r') :
    (rows.map fun x => a x.1 x.2).sum + b k r = (rows.map fun x => b x.1 x.2).sum + a k r := by
  induction rows with
  | nil => simp at hmem
  | cons x rows ih =>
      rw [List.map_cons, List.nodup_cons] at hnodup
      rcases List.mem_cons.mp hmem with hx | hx
      · have htail : rows.map (fun y => a y.1 y.2) = rows.map fun y => b y.1 y.2 := by
          refine List.map_congr_left fun y hy => hagree _ _ fun hyk => hnodup.1 ?_
          have hkey : k = x.1 := congrArg Prod.fst hx
          rw [← hkey, ← hyk]
          exact List.mem_map_of_mem (f := Prod.fst) hy
        simp only [List.map_cons, List.sum_cons, htail, ← hx]
        rw [add_right_comm, add_comm (a k r), add_right_comm]
      · have hne : x.1 ≠ k := fun hk => hnodup.1 (hk ▸ List.mem_map_of_mem (f := Prod.fst) hx)
        simp only [List.map_cons, List.sum_cons, add_assoc, ih hnodup.2 hx, hagree _ _ hne]

/-- Changing one row replaces its contribution. -/
theorem total_update {t : Table κ ρ} {k : κ} {r : ρ} (hk : t.get? k = some r) (g : ρ → ρ)
    (f : κ → ρ → M) : (t.update k g).total f + f k r = t.total f + f k (g r) := by
  unfold update
  rw [total_mapRows]
  have := sum_replace (a := fun k' r' => f k' (if k' = k then g r' else r')) (b := f)
    t.nodupKeys (get?_eq_some_iff.mp hk) (fun k' r' hne => by rw [if_neg hne])
  simpa [total] using this

/-- A change that keeps the contribution of the row keeps the sum. -/
theorem total_update_eq {t : Table κ ρ} {k : κ} {g : ρ → ρ} {f : κ → ρ → M}
    (h : ∀ r, f k (g r) = f k r) : (t.update k g).total f = t.total f := by
  unfold update
  rw [total_mapRows]
  refine total_congr fun k' r _ => ?_
  split <;> rename_i hkk
  · rw [hkk, h]
  · rfl

/-- A sum that leaves one row out lacks exactly its contribution. -/
theorem total_omit {t : Table κ ρ} {k : κ} {r : ρ} (hk : t.get? k = some r) (f : κ → ρ → M) :
    (t.total fun k' r' => if k' = k then 0 else f k' r') + f k r = t.total f := by
  have := sum_replace (a := fun k' r' => if k' = k then (0 : M) else f k' r') (b := f)
    t.nodupKeys (get?_eq_some_iff.mp hk) (fun k' r' hne => by rw [if_neg hne])
  simpa [total] using this

/-- Removing a row removes its contribution. -/
theorem total_erase {t : Table κ ρ} {k : κ} {r : ρ} (hk : t.get? k = some r) (f : κ → ρ → M) :
    (t.erase k).total f + f k r = t.total f := by
  have herase : (t.erase k).total f = t.total fun k' r' => if k' = k then 0 else f k' r' := by
    simp only [total, erase, filterRows]
    induction t.rows with
    | nil => rfl
    | cons x rows ih =>
        by_cases hx : x.1 = k
        · simpa [hx] using ih
        · rw [List.filter_cons_of_pos (by simpa using hx), List.map_cons, List.sum_cons, ih]
          simp [hx]
  rw [herase, total_omit hk]

end Totals

omit [DecidableEq κ] in
/-- A sum of nonnegative contributions is nonnegative. -/
theorem total_nonneg {t : Table κ ρ} {f : κ → ρ → ℤ}
    (h : ∀ k r, (k, r) ∈ t.rows → 0 ≤ f k r) : 0 ≤ t.total f := by
  refine List.sum_nonneg fun x hx => ?_
  obtain ⟨r, hr, rfl⟩ := List.mem_map.mp hx
  exact h r.1 r.2 hr

/-- A single contribution is at most a sum of nonnegative ones. -/
theorem le_total {t : Table κ ρ} {f : κ → ρ → ℤ} {k : κ} {r : ρ}
    (h : ∀ k r, (k, r) ∈ t.rows → 0 ≤ f k r) (hk : t.get? k = some r) :
    f k r ≤ t.total f := by
  have hrest : 0 ≤ (t.erase k).total f := by
    refine total_nonneg fun k' r' hmem => h k' r' ?_
    exact List.mem_of_mem_filter hmem
  have := total_erase hk f
  omega

end Table

end Library
end DarkXray
