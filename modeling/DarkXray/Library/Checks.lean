import Mathlib.Data.List.Forall2
import DarkXray.Library.Transactions

/-!
# Checks on lists

A computation that may fail, performed for every item of a list in order.

Main results:

- Theorem {lit}`except_forM_ok_iff`: all items pass exactly if each of them does.
- Theorem {lit}`except_mapM_ok_iff`: the results are those of the items, one by one.
- Theorem {lit}`except_foldlM_at`: items that touch only their own part of a store do not
  influence each other.
-/

namespace DarkXray
namespace Library

variable {ε α β : Type}

/-- All items pass exactly if each of them does. -/
theorem except_forM_ok_iff {f : α → Except ε Unit} {xs : List α} {u : Unit} :
    xs.forM f = .ok u ↔ ∀ x ∈ xs, f x = .ok () := by
  induction xs with
  | nil =>
      have hnil : ([] : List α).forM f = .ok () := rfl
      simp [hnil]
  | cons x xs ih =>
      have hcons : (x :: xs).forM f = f x >>= fun _ => xs.forM f := rfl
      rw [hcons, except_bind_ok_iff, List.forall_mem_cons]
      constructor
      · rintro ⟨_, hx, hxs⟩
        exact ⟨hx, ih.mp hxs⟩
      · intro h
        exact ⟨(), h.1, ih.mpr h.2⟩

/-- The results are those of the items, one by one. -/
theorem except_mapM_ok_iff {f : α → Except ε β} {xs : List α} {ys : List β} :
    xs.mapM f = .ok ys ↔ List.Forall₂ (fun x y => f x = .ok y) xs ys := by
  induction xs generalizing ys with
  | nil =>
      rw [List.mapM_nil, except_pure_ok_iff, List.forall₂_nil_left_iff]
  | cons x xs ih =>
      simp only [List.mapM_cons, except_bind_ok_iff, except_pure_ok_iff, ih]
      constructor
      · rintro ⟨y, hy, zs, hzs, rfl⟩
        exact List.Forall₂.cons hy hzs
      · intro h
        cases h with
        | cons hy hzs => exact ⟨_, hy, _, hzs, rfl⟩

/-- Every result comes from an item. -/
theorem exists_of_mem_mapM {f : α → Except ε β} {xs : List α} {ys : List β} {y : β}
    (h : xs.mapM f = .ok ys) (hy : y ∈ ys) : ∃ x ∈ xs, f x = .ok y := by
  have hall := except_mapM_ok_iff.mp h
  clear h
  induction hall with
  | nil => cases hy
  | cons hx _ ih =>
      rcases List.mem_cons.mp hy with rfl | hy
      · exact ⟨_, List.mem_cons_self, hx⟩
      · obtain ⟨x, hmem, hx⟩ := ih hy
        exact ⟨x, List.mem_cons_of_mem _ hmem, hx⟩

/-- Every item has a result. -/
theorem exists_of_mem_mapM_left {f : α → Except ε β} {xs : List α} {ys : List β} {x : α}
    (h : xs.mapM f = .ok ys) (hx : x ∈ xs) : ∃ y ∈ ys, f x = .ok y := by
  have hall := except_mapM_ok_iff.mp h
  clear h
  induction hall with
  | nil => cases hx
  | cons hy _ ih =>
      rcases List.mem_cons.mp hx with rfl | hx
      · exact ⟨_, List.mem_cons_self, hy⟩
      · obtain ⟨y, hmem, hy⟩ := ih hx
        exact ⟨y, List.mem_cons_of_mem _ hmem, hy⟩

/-- Where every item has a result, all of them have. -/
theorem exists_mapM_ok {f : α → Except ε β} {xs : List α} (h : ∀ x ∈ xs, ∃ y, f x = .ok y) :
    ∃ ys, xs.mapM f = .ok ys := by
  induction xs with
  | nil => exact ⟨[], rfl⟩
  | cons x xs ih =>
      obtain ⟨y, hy⟩ := h x List.mem_cons_self
      obtain ⟨ys, hys⟩ := ih fun z hz => h z (List.mem_cons_of_mem _ hz)
      exact ⟨y :: ys, by rw [List.mapM_cons, hy, hys]; rfl⟩

/-! ## Items that belong to different keys -/

section Keyed

variable {σ κ ν : Type} {f : σ → α → Except ε σ} (key : α → κ) (view : κ → σ → ν)

/-- What every item leaves alone stays as it is. -/
theorem except_foldlM_frame (hframe : ∀ s x t, f s x = .ok t → ∀ k, k ≠ key x → view k t = view k s)
    {xs : List α} {s t : σ} (h : xs.foldlM f s = .ok t) {k : κ} (hk : ∀ x ∈ xs, k ≠ key x) :
    view k t = view k s := by
  induction xs generalizing s with
  | nil =>
      rw [List.foldlM_nil, except_pure_ok_iff] at h
      rw [h]
  | cons x xs ih =>
      rw [List.foldlM_cons, except_bind_ok_iff] at h
      obtain ⟨u, hx, hxs⟩ := h
      rw [List.forall_mem_cons] at hk
      rw [ih hxs hk.2, hframe s x u hx k hk.1]

/-- Items with different keys that each touch only their own part: what becomes of a part is what
its item made of it. -/
theorem except_foldlM_at (hframe : ∀ s x t, f s x = .ok t → ∀ k, k ≠ key x → view k t = view k s)
    {xs : List α} {s t : σ} (h : xs.foldlM f s = .ok t) (hkeys : (xs.map key).Nodup) {x : α}
    (hx : x ∈ xs) :
    ∃ u v, view (key x) u = view (key x) s ∧ f u x = .ok v ∧ view (key x) t = view (key x) v := by
  induction xs generalizing s with
  | nil => cases hx
  | cons y xs ih =>
      rw [List.foldlM_cons, except_bind_ok_iff] at h
      obtain ⟨u, hy, hxs⟩ := h
      rw [List.map_cons, List.nodup_cons] at hkeys
      have hother : ∀ z ∈ xs, key y ≠ key z := by
        intro z hz heq
        exact hkeys.1 (heq ▸ List.mem_map_of_mem hz)
      rcases List.mem_cons.mp hx with rfl | hmem
      · exact ⟨s, u, rfl, hy, except_foldlM_frame key view hframe hxs hother⟩
      · obtain ⟨v, w, hv, hf, hw⟩ := ih hxs hkeys.2 hmem
        exact ⟨v, w, hv.trans (hframe s y u hy _ (hother x hmem).symm), hf, hw⟩

/-- All items are carried out if each of them can be, from wherever the others lead. -/
theorem except_foldlM_total {xs : List α} (htotal : ∀ s, ∀ x ∈ xs, ∃ t, f s x = .ok t) (s : σ) :
    ∃ t, xs.foldlM f s = .ok t := by
  induction xs generalizing s with
  | nil => exact ⟨s, rfl⟩
  | cons x xs ih =>
      obtain ⟨u, hu⟩ := htotal s x (List.mem_cons_self ..)
      obtain ⟨t, ht⟩ := ih (fun s y hy => htotal s y (List.mem_cons_of_mem x hy)) u
      refine ⟨t, ?_⟩
      rw [List.foldlM_cons, hu]
      exact ht

end Keyed

end Library
end DarkXray
