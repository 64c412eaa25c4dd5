import Mathlib.Data.List.Perm.Subperm
import Mathlib.Logic.Relation

/-!
# Chains of successors

Where every key has at most one successor, a key starts a chain that either ends at a
key without a successor or comes back to itself.  A walk that remembers the keys it has
passed finds out which.

Main results:

- Theorem {lit}`walk_isSome`: with as much fuel as there are keys the walk comes to an
  answer.
- Theorem {lit}`acyclic_iff_walk`: the successors form no cycle exactly if no walk comes
  back to a key that it has passed.
-/

namespace DarkXray
namespace Library

variable {κ : Type*}

/-- One key has another as its successor. -/
def Leads (next : κ → Option κ) (a b : κ) : Prop :=
  next a = some b

/-- No chain of successors comes back to where it started. -/
def Acyclic (next : κ → Option κ) : Prop :=
  ∀ a, ¬ Relation.TransGen (Leads next) a a

/-- Follow the successors of a key until they end, or come to a key already passed; the
fuel bounds the number of steps. -/
def walk [DecidableEq κ] (next : κ → Option κ) : ℕ → List κ → κ → Option Bool
  | 0, _, _ => none
  | fuel + 1, seen, current =>
      match next current with
      | none => some false
      | some target =>
          if current ∈ seen then some true else walk next fuel (current :: seen) target

section Walks

variable [DecidableEq κ] {next : κ → Option κ}

/-- A walk with fuel for every key that it has not passed comes to an answer. -/
theorem walk_isSome {keys : List κ} (hkeys : ∀ a, (next a).isSome → a ∈ keys) :
    ∀ {fuel : ℕ} {seen : List κ} (current : κ), seen.Nodup → seen ⊆ keys →
      keys.length < fuel + seen.length → (walk next fuel seen current).isSome := by
  intro fuel
  induction fuel with
  | zero =>
      intro seen current hnodup hsub hlength
      have hle : seen.length ≤ keys.length := (hnodup.subperm hsub).length_le
      omega
  | succ fuel ih =>
      intro seen current hnodup hsub hlength
      unfold walk
      cases hnext : next current with
      | none => rfl
      | some target =>
          by_cases hseen : current ∈ seen
          · simp [hseen]
          · have hmem : current ∈ keys := hkeys current (by simp [hnext])
            have hnodup' : (current :: seen).Nodup := List.nodup_cons.mpr ⟨hseen, hnodup⟩
            have hsub' : current :: seen ⊆ keys := List.cons_subset.mpr ⟨hmem, hsub⟩
            have hlength' : keys.length < fuel + (current :: seen).length := by
              simp only [List.length_cons]
              omega
            simpa [hseen] using ih target hnodup' hsub' hlength'

/-- What a walk comes back to lies on a cycle. -/
theorem cycle_of_walk : ∀ {fuel : ℕ} {seen : List κ} {current : κ},
    (∀ a ∈ seen, Relation.TransGen (Leads next) a current) →
      walk next fuel seen current = some true → ¬ Acyclic next := by
  intro fuel
  induction fuel with
  | zero => intro seen current _ h; cases h
  | succ fuel ih =>
      intro seen current hseen h
      unfold walk at h
      cases hnext : next current with
      | none => simp [hnext] at h
      | some target =>
          rw [hnext] at h
          by_cases hmem : current ∈ seen
          · exact fun hacyclic => hacyclic current (hseen current hmem)
          · have hstep : Leads next current target := hnext
            have hpassed : ∀ a ∈ current :: seen, Relation.TransGen (Leads next) a target := by
              intro a ha
              rcases List.mem_cons.mp ha with rfl | ha
              · exact Relation.TransGen.single hstep
              · exact (hseen a ha).tail hstep
            exact ih hpassed (by simpa [hmem] using h)

/-- Nothing on a cycle lies on a chain that ends. -/
theorem no_cycle_of_walk : ∀ {fuel : ℕ} {seen : List κ} {current : κ},
    walk next fuel seen current = some false →
      ¬ Relation.TransGen (Leads next) current current := by
  intro fuel
  induction fuel with
  | zero => intro seen current h; cases h
  | succ fuel ih =>
      intro seen current h hcycle
      unfold walk at h
      obtain ⟨target, hstep, hback⟩ := Relation.TransGen.head'_iff.mp hcycle
      have hnext : next current = some target := hstep
      rw [hnext] at h
      by_cases hmem : current ∈ seen
      · simp [hmem] at h
      · -- the cycle through the key is one through its successor
        have hround : Relation.TransGen (Leads next) target target :=
          Relation.TransGen.tail'_iff.mpr ⟨current, hback, hstep⟩
        exact ih (by simpa [hmem] using h) hround

/-- The successors form no cycle exactly if every walk from a key ends. -/
theorem acyclic_iff_walk {keys : List κ} (hkeys : ∀ a, (next a).isSome → a ∈ keys) :
    Acyclic next ↔ ∀ a ∈ keys, walk next (keys.length + 1) [] a ≠ some true := by
  constructor
  · intro hacyclic a _ hwalk
    exact cycle_of_walk (by simp) hwalk hacyclic
  · intro hwalk a hcycle
    obtain ⟨target, hstep, -⟩ := Relation.TransGen.head'_iff.mp hcycle
    have hnext : next a = some target := hstep
    have hmem : a ∈ keys := hkeys a (by simp [hnext])
    have hsome := walk_isSome hkeys a List.nodup_nil (List.nil_subset keys)
      (Nat.lt_succ_self keys.length)
    obtain ⟨found, hfound⟩ := Option.isSome_iff_exists.mp hsome
    cases found with
    | true => exact hwalk a hmem hfound
    | false => exact no_cycle_of_walk hfound hcycle

end Walks

end Library
end DarkXray
