import Mathlib.Algebra.Ring.Int.Defs
import DarkXray.Library.Tables

/-!
# Numbered entries of a journal

A journal keeps the entries of many accounts in one table.  The entries of an account
are numbered one after the other, and a name is computed from the account and the
number.  This file sums the entries of an account between two numbers, and says which
changes of the journal such a sum takes notice of.

Main results:

- Theorem {lit}`between_succ`: one more entry adds its own amount.
- Theorem {lit}`between_congr`: only the entries of the account matter.
- Theorem {lit}`between_insert_of_ne`: an entry of another name changes no sum.
-/

namespace DarkXray
namespace Library
namespace Table

variable {κ ρ : Type*} [DecidableEq κ]

/-- The amount of one entry; what is not there amounts to nothing. -/
def amount (t : Table κ ρ) (f : ρ → ℤ) (k : κ) : ℤ :=
  (t.get? k).elim 0 f

/-- The amounts of the entries after {lit}`lo` up to {lit}`hi`. -/
def between (t : Table κ ρ) (name : ℤ → κ) (f : ρ → ℤ) (lo hi : ℤ) : ℤ :=
  ((List.range (hi - lo).toNat).map fun i : ℕ => t.amount f (name (lo + 1 + i))).sum

section Sums

variable {t t' : Table κ ρ} {name : ℤ → κ} {f : ρ → ℤ} {lo hi : ℤ}

@[simp]
theorem between_self : t.between name f lo lo = 0 := by
  simp [between]

/-- One more entry adds its own amount. -/
theorem between_succ (h : lo ≤ hi) :
    t.between name f lo (hi + 1) = t.between name f lo hi + t.amount f (name (hi + 1)) := by
  obtain ⟨n, rfl⟩ : ∃ n : ℕ, hi = lo + n := ⟨(hi - lo).toNat, by omega⟩
  have hlong : (lo + n + 1 - lo).toNat = n + 1 := by omega
  have hshort : (lo + n - lo).toNat = n := by omega
  have hlast : lo + 1 + (n : ℤ) = lo + n + 1 := by omega
  rw [between, between, hlong, hshort, List.range_succ, List.map_append, List.sum_append,
    List.map_singleton, List.sum_singleton, hlast]

/-- Only the entries of the account matter. -/
theorem between_congr
    (h : ∀ i, lo < i → i ≤ hi → t'.amount f (name i) = t.amount f (name i)) :
    t'.between name f lo hi = t.between name f lo hi := by
  refine congrArg List.sum (List.map_congr_left fun i hi' => h _ ?_ ?_)
  · omega
  · have := List.mem_range.mp hi'
    omega

/-- An entry of another name changes no sum. -/
theorem between_insert_of_ne {k : κ} {r : ρ} (hk : t.get? k = none)
    (hne : ∀ i, lo < i → i ≤ hi → name i ≠ k) :
    (t.insert k r).between name f lo hi = t.between name f lo hi := by
  refine between_congr fun i hlo hhi => ?_
  rw [amount, amount, get?_insert hk, if_neg (hne i hlo hhi)]

theorem amount_insert_self {k : κ} {r : ρ} (hk : t.get? k = none) :
    (t.insert k r).amount f k = f r := by
  rw [amount, get?_insert hk, if_pos rfl]
  rfl

end Sums

end Table
end Library
end DarkXray
