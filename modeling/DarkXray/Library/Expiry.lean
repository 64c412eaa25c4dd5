import DarkXray.Library.Tables
import Mathlib.Order.Defs.LinearOrder

/-!
# Tables of expiry times

A table may keep a time for each key: the key counts until then.  One table backs another if
every key of the other one is in it, and does not end there earlier.

Main results:

- Theorem {lit}`Table.get?_refreshAll`: what putting some keys with a new time does.
- Theorem {lit}`Backs.refresh`: new keys that are put into both tables stay backed.
- Theorem {lit}`Backs.alive`: what counts in a table counts in one that backs it.
-/

namespace DarkXray
namespace Library

variable {κ κ' τ : Type} [DecidableEq κ] [DecidableEq κ']

namespace Table

/-- Put some keys, whatever they had. -/
def putAll (time : τ) (t : Table κ τ) (keys : List κ) : Table κ τ :=
  keys.foldl (fun t k => t.upsert k time fun _ => time) t

/-- The entries for the keys last until the given time, the other ones as before. -/
theorem get?_putAll (time : τ) (t : Table κ τ) (keys : List κ) (k : κ) :
    (t.putAll time keys).get? k = if k ∈ keys then some time else t.get? k := by
  induction keys generalizing t with
  | nil => rfl
  | cons first rest ih =>
      have hfold : t.putAll time (first :: rest) =
          (t.upsert first time fun _ => time).putAll time rest := rfl
      rw [hfold, ih, get?_upsert]
      by_cases hmem : k ∈ rest
      · rw [if_pos hmem, if_pos (List.mem_cons_of_mem _ hmem)]
      · rw [if_neg hmem]
        by_cases hk : k = first
        · rw [if_pos hk, if_pos (hk ▸ List.mem_cons_self)]
          cases t.get? first <;> rfl
        · rw [if_neg hk, if_neg]
          simp [hk, hmem]

/-- A table grows by no more than the keys that are put. -/
theorem length_putAll_le (time : τ) (t : Table κ τ) (keys : List κ) :
    (t.putAll time keys).rows.length ≤ t.rows.length + keys.length := by
  induction keys generalizing t with
  | nil => exact le_rfl
  | cons first rest ih =>
      have hfirst := length_upsert_le t first time fun _ => time
      have hrest := ih (t.upsert first time fun _ => time)
      have hfold : t.putAll time (first :: rest) =
          (t.upsert first time fun _ => time).putAll time rest := rfl
      rw [hfold, List.length_cons]
      omega

variable [LinearOrder τ]

/-- The key is there, and its time has not come. -/
def alive (t : Table κ τ) (k : κ) (now : τ) : Bool :=
  (t.get? k).any fun e => decide (now < e)

/-- Drop the keys whose time has come. -/
def purge (t : Table κ τ) (now : τ) : Table κ τ :=
  t.filterRows fun _ e => decide (now < e)

/-- Put a key with a new time; a key that still counts gets the time {lit}`again` gives it. -/
def refresh (again : τ → τ → τ) (now time : τ) (t : Table κ τ) (k : κ) : Table κ τ :=
  t.upsert k time fun old => if now < old then again old time else time

/-- Put some keys. -/
def refreshAll (again : τ → τ → τ) (now time : τ) (t : Table κ τ) (keys : List κ) : Table κ τ :=
  keys.foldl (refresh again now time) t

section Lookups

variable {t : Table κ τ} {k : κ} {now time : τ} {again : τ → τ → τ} {keys : List κ}

/-- A key is alive while its entry has not run out. -/
theorem alive_iff : t.alive k now = true ↔ ∃ e, t.get? k = some e ∧ now < e := by
  unfold alive
  rw [Option.any_eq_true]
  simp only [decide_eq_true_eq]

/-- What counts later counts before. -/
theorem alive_mono {now' : τ} (h : t.alive k now = true) (hle : now' ≤ now) :
    t.alive k now' = true := by
  obtain ⟨e, he, hlt⟩ := alive_iff.mp h
  exact alive_iff.mpr ⟨e, he, lt_of_le_of_lt hle hlt⟩

/-- What does not count does not count later. -/
theorem not_alive_mono {now' : τ} (h : t.alive k now = false) (hle : now ≤ now') :
    t.alive k now' = false := by
  rw [← Bool.not_eq_true] at h ⊢
  exact fun halive => h (alive_mono halive hle)

/-- A purge keeps exactly the entries that have not run out. -/
@[simp]
theorem get?_purge (t : Table κ τ) (now : τ) (k : κ) :
    (t.purge now).get? k = (t.get? k).filter fun e => decide (now < e) :=
  get?_filterRows t _ k

theorem get?_purge_eq_some_iff {e : τ} :
    (t.purge now).get? k = some e ↔ t.get? k = some e ∧ now < e := by
  rw [get?_purge, Option.filter_eq_some_iff, decide_eq_true_eq]

/-- A key that counts is not dropped. -/
theorem alive_purge : (t.purge now).alive k now = t.alive k now := by
  rw [Bool.eq_iff_iff, alive_iff, alive_iff]
  constructor
  · rintro ⟨v, hv, hlt⟩
    exact ⟨v, (get?_purge_eq_some_iff.mp hv).1, hlt⟩
  · rintro ⟨v, hv, hlt⟩
    exact ⟨v, get?_purge_eq_some_iff.mpr ⟨hv, hlt⟩, hlt⟩

/-- A key that counts later is not dropped. -/
theorem alive_purge_of_le {now' : τ} (h : t.alive k now' = true) (hle : now ≤ now') :
    (t.purge now).alive k now' = true := by
  obtain ⟨e, he, hlt⟩ := alive_iff.mp h
  exact alive_iff.mpr ⟨e, get?_purge_eq_some_iff.mpr ⟨he, lt_of_le_of_lt hle hlt⟩, hlt⟩

omit [DecidableEq κ] in
/-- A purge makes no table longer. -/
theorem length_purge_le (t : Table κ τ) (now : τ) : (t.purge now).rows.length ≤ t.rows.length :=
  List.length_filter_le _ _

/-- A key that does not count gets the new time. -/
theorem get?_refresh (hdead : t.alive k now = false) (k' : κ) :
    (t.refresh again now time k).get? k' = if k' = k then some time else t.get? k' := by
  unfold refresh
  rw [get?_upsert]
  by_cases hk : k' = k
  · rw [if_pos hk, if_pos hk]
    cases hrow : t.get? k with
    | none => rfl
    | some old =>
        have hold : ¬ now < old := by
          intro hlt
          have halive : t.alive k now = true := alive_iff.mpr ⟨old, hrow, hlt⟩
          rw [hdead] at halive
          cases halive
        rw [Option.map_some, if_neg hold]
        rfl
  · rw [if_neg hk, if_neg hk]

/-- Other keys stay. -/
theorem get?_refreshAll_of_not_mem (hk : k ∉ keys) :
    (t.refreshAll again now time keys).get? k = t.get? k := by
  induction keys generalizing t with
  | nil => rfl
  | cons first rest ih =>
      rw [List.mem_cons, not_or] at hk
      have hfold : t.refreshAll again now time (first :: rest) =
          (t.refresh again now time first).refreshAll again now time rest := rfl
      rw [hfold, ih hk.2, refresh, get?_upsert, if_neg hk.1]

/-- Keys that do not count get the new time, and all others stay. -/
theorem get?_refreshAll (hdead : ∀ k ∈ keys, t.alive k now = false) (hnodup : keys.Nodup) (k : κ) :
    (t.refreshAll again now time keys).get? k = if k ∈ keys then some time else t.get? k := by
  induction keys generalizing t with
  | nil => rfl
  | cons first rest ih =>
      rw [List.nodup_cons] at hnodup
      have hrest : ∀ k ∈ rest, (t.refresh again now time first).alive k now = false := by
        intro k hk
        have hne : k ≠ first := fun he => hnodup.1 (he ▸ hk)
        unfold alive
        rw [get?_refresh (hdead first List.mem_cons_self), if_neg hne]
        exact hdead k (List.mem_cons_of_mem _ hk)
      have hfold : t.refreshAll again now time (first :: rest) =
          (t.refresh again now time first).refreshAll again now time rest := rfl
      rw [hfold, ih hrest hnodup.2, get?_refresh (hdead first List.mem_cons_self)]
      by_cases hmem : k ∈ rest
      · rw [if_pos hmem, if_pos (List.mem_cons_of_mem _ hmem)]
      · rw [if_neg hmem]
        simp only [List.mem_cons, hmem, or_false]

end Lookups

end Table

/-! ## Tables that back others -/

variable [LinearOrder τ]

/-- Every key of a table is in another one, and does not end there earlier. -/
def Backs (f : κ → κ') (u : Table κ' τ) (t : Table κ τ) : Prop :=
  ∀ k v, t.get? k = some v → ∃ e, u.get? (f k) = some e ∧ v ≤ e

section Backing

variable {f : κ → κ'} {t t' : Table κ τ} {u u' : Table κ' τ} {k : κ} {now : τ}

/-- A table without keys is backed. -/
theorem Backs.empty : Backs f u (Table.empty : Table κ τ) := by
  intro k v hk
  rw [Table.get?_empty] at hk
  cases hk

/-- What counts in a table counts in one that backs it. -/
theorem Backs.alive (h : Backs f u t) (hk : t.alive k now = true) : u.alive (f k) now = true := by
  obtain ⟨v, hv, hlt⟩ := Table.alive_iff.mp hk
  obtain ⟨e, he, hle⟩ := h k v hv
  exact Table.alive_iff.mpr ⟨e, he, lt_of_lt_of_le hlt hle⟩

/-- Fewer keys are backed as well. -/
theorem Backs.mono (h : Backs f u t) (ht : ∀ k v, t'.get? k = some v → t.get? k = some v) :
    Backs f u t' :=
  fun k v hk => h k v (ht k v hk)

theorem Backs.purge (h : Backs f u t) (now : τ) : Backs f u (t.purge now) :=
  h.mono fun _ _ hk => (Table.get?_purge_eq_some_iff.mp hk).1

/-- Keys that do not count are put into both tables, and end in the backing one no earlier. -/
theorem Backs.refresh {again : τ → τ → τ} {moment time time' : τ} {keys : List κ}
    (hf : f.Injective) (h : Backs f u t) (hle : time ≤ time')
    (hdead : ∀ k ∈ keys, u.alive (f k) moment = false) (hnodup : keys.Nodup) :
    Backs f (u.refreshAll again moment time' (keys.map f)) (t.putAll time keys) := by
  intro k v hk
  have hdead' : ∀ x ∈ keys.map f, u.alive x moment = false := by
    intro x hx
    obtain ⟨k, hmem, rfl⟩ := List.mem_map.mp hx
    exact hdead k hmem
  rw [Table.get?_refreshAll hdead' (hnodup.map hf)]
  rw [Table.get?_putAll] at hk
  split at hk
  · rename_i hmem
    rw [if_pos (List.mem_map_of_mem hmem)]
    obtain rfl := Option.some.inj hk
    exact ⟨time', rfl, hle⟩
  · rename_i hmem
    rw [if_neg fun hmap => hmem ((List.mem_map_of_injective hf).mp hmap)]
    exact h k v hk

end Backing

end Library
end DarkXray
