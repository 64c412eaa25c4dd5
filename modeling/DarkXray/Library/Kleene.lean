import Mathlib.Data.List.Basic
import Mathlib.Tactic.Common

/-!
# Three-valued verdicts

An evaluator that does not know everything answers {lit}`some true`, {lit}`some false` or
{lit}`none`.  What it leaves open is settled by a world, and an answer is truthful if no world
contradicts it.  Lists of conditions, lists of alternatives and the search for the first rule
that holds are treated here for any worlds and any rules.

Main results:

- Theorem {lit}`firstHit_eq_false_iff`: a list of alternatives is refuted exactly if each of
  them is.
- Theorem {lit}`truthful_scan_iff`: the finding of a search is truthful exactly if the verdict
  of every rule that the search reaches is right in all worlds.
-/

namespace DarkXray
namespace Library

/-! ## Conditions and alternatives -/

/-- All conditions: a refuted one decides, an open one comes before those that hold. -/
def allOf (verdicts : List (Option Bool)) : Option Bool :=
  if verdicts.any (· = some false) then some false
  else if verdicts.any (· = none) then none
  else some true

/-- A conjunction is refuted exactly if one verdict is. -/
theorem allOf_eq_false_iff {verdicts : List (Option Bool)} :
    allOf verdicts = some false ↔ some false ∈ verdicts := by
  unfold allOf
  split_ifs with h h'
  · simpa using h
  · simpa using h
  · simpa using h

/-- A conjunction is confirmed exactly if all verdicts are. -/
theorem allOf_eq_true_iff {verdicts : List (Option Bool)} :
    allOf verdicts = some true ↔ ∀ v ∈ verdicts, v = some true := by
  induction verdicts with
  | nil => simp [allOf]
  | cons v verdicts ih =>
      cases v with
      | none =>
          simp only [allOf, List.any_cons]
          split_ifs <;> simp_all
      | some b =>
          cases b with
          | false => simp [allOf]
          | true => simpa [allOf] using ih

section Alternatives

variable {τ : Type*} (read : τ → Option Bool)

/-- Look for an alternative that holds; {lit}`unknown` tells if an open one was passed. -/
def firstHit : List τ → Bool → Option Bool
  | [], unknown => if unknown then none else some false
  | t :: ts, unknown =>
      match read t with
      | none => firstHit ts true
      | some true => some true
      | some false => firstHit ts unknown

variable {read}

/-- A search is confirmed exactly if one reading is. -/
theorem firstHit_eq_true_iff {ts : List τ} {unknown : Bool} :
    firstHit read ts unknown = some true ↔ ∃ t ∈ ts, read t = some true := by
  induction ts generalizing unknown with
  | nil => cases unknown <;> simp [firstHit]
  | cons t ts ih =>
      unfold firstHit
      cases h : read t with
      | none => simp [h, ih]
      | some b => cases b <;> simp [h, ih]

/-- A list of alternatives is refuted exactly if each of them is. -/
theorem firstHit_eq_false_iff {ts : List τ} {unknown : Bool} :
    firstHit read ts unknown = some false ↔ unknown = false ∧ ∀ t ∈ ts, read t = some false := by
  induction ts generalizing unknown with
  | nil => cases unknown <;> simp [firstHit]
  | cons t ts ih =>
      unfold firstHit
      cases h : read t with
      | none => simp [h, ih]
      | some b => cases b <;> simp [h, ih]

/-- Check requirements up to one that fails; {lit}`unknown` tells if an open one was passed. -/
def firstMiss (read : τ → Option Bool) : List τ → Bool → Option Bool
  | [], unknown => if unknown then none else some true
  | t :: ts, unknown =>
      match read t with
      | none => firstMiss read ts true
      | some false => some false
      | some true => firstMiss read ts unknown

/-- A list of requirements is refuted exactly if one of them is. -/
theorem firstMiss_eq_false_iff {ts : List τ} {unknown : Bool} :
    firstMiss read ts unknown = some false ↔ ∃ t ∈ ts, read t = some false := by
  induction ts generalizing unknown with
  | nil => cases unknown <;> simp [firstMiss]
  | cons t ts ih =>
      unfold firstMiss
      cases h : read t with
      | none => simp [h, ih]
      | some b => cases b <;> simp [h, ih]

/-- A check of all is confirmed exactly if every reading is, and nothing was open. -/
theorem firstMiss_eq_true_iff {ts : List τ} {unknown : Bool} :
    firstMiss read ts unknown = some true ↔ unknown = false ∧ ∀ t ∈ ts, read t = some true := by
  induction ts generalizing unknown with
  | nil => cases unknown <;> simp [firstMiss]
  | cons t ts ih =>
      unfold firstMiss
      cases h : read t with
      | none => simp [h, ih]
      | some b => cases b <;> simp [h, ih]

/-! The values that were read, without the open ones. -/

/-- Among the readings that are known, one is confirmed. -/
theorem any_filterMap_iff {ts : List τ} :
    (ts.filterMap read).any id = true ↔ ∃ t ∈ ts, read t = some true := by
  simp only [List.any_eq_true, List.mem_filterMap, id]
  constructor
  · rintro ⟨b, ⟨t, ht, hb⟩, rfl⟩
    exact ⟨t, ht, hb⟩
  · rintro ⟨t, ht, hb⟩
    exact ⟨true, ⟨t, ht, hb⟩, rfl⟩

/-- Among the readings that are known, none is refuted. -/
theorem all_filterMap_iff {ts : List τ} :
    (ts.filterMap read).all id = true ↔ ∀ t ∈ ts, read t ≠ some false := by
  simp only [List.all_eq_true, List.mem_filterMap, id]
  constructor
  · intro h t ht hfalse
    exact Bool.false_ne_true (h false ⟨t, ht, hfalse⟩)
  · rintro h b ⟨t, ht, hb⟩
    cases b with
    | true => rfl
    | false => exact absurd hb (h t ht)

/-- One of the readings is known. -/
theorem isEmpty_filterMap_iff {ts : List τ} :
    (ts.filterMap read).isEmpty = false ↔ ∃ t ∈ ts, read t ≠ none := by
  induction ts with
  | nil => simp
  | cons t ts ih => cases h : read t <;> simp [h, ih]

/-! The values that a world gives to what was read, and to what was left open. -/

variable {value : τ → Bool}

/-- If all readings are refuted, no fixing confirms one. -/
theorem any_getD_eq_false {ts : List τ} (h : ∀ t ∈ ts, read t = some false) :
    (ts.any fun t => (read t).getD (value t)) = false := by
  simp only [List.any_eq_false]
  intro t ht
  simp [h t ht]

/-- A reading that is not refuted, and that the fixing favours, is confirmed. -/
theorem any_getD_eq_true {ts : List τ} {t : τ} (ht : t ∈ ts) (hread : read t ≠ some false)
    (hvalue : read t = none → value t = true) :
    (ts.any fun t => (read t).getD (value t)) = true := by
  rw [List.any_eq_true]
  refine ⟨t, ht, ?_⟩
  cases h : read t with
  | none => exact hvalue h
  | some b => cases b <;> simp_all

/-- If no reading is refuted and the fixing favours the open ones, all are confirmed. -/
theorem all_getD_eq_true {ts : List τ} (hread : ∀ t ∈ ts, read t ≠ some false)
    (hvalue : ∀ t ∈ ts, read t = none → value t = true) :
    (ts.all fun t => (read t).getD (value t)) = true := by
  rw [List.all_eq_true]
  intro t ht
  cases h : read t with
  | none => exact hvalue t ht h
  | some b => cases b <;> simp_all

/-- A refuted reading refutes all, whatever the fixing. -/
theorem all_getD_eq_false {ts : List τ} {t : τ} (ht : t ∈ ts) (hread : read t = some false) :
    (ts.all fun t => (read t).getD (value t)) = false := by
  rw [List.all_eq_false]
  exact ⟨t, ht, by simp [hread]⟩

end Alternatives

/-! ## The first rule that holds -/

/-- What a search for the first rule that holds can say; places count from zero. -/
inductive Finding where
  | found (place : ℕ)
  | unclear (place : ℕ)
  | nothing
deriving DecidableEq, Repr

/-- The finding in a list with so many more rules in front. -/
def Finding.shift (n : ℕ) : Finding → Finding
  | .found k => .found (k + n)
  | .unclear k => .unclear (k + n)
  | .nothing => .nothing

/-- Shifting by nothing changes nothing. -/
@[simp]
theorem Finding.shift_zero (f : Finding) : f.shift 0 = f := by
  cases f <;> rfl

/-- Shifts add up. -/
@[simp]
theorem Finding.shift_shift (f : Finding) (m n : ℕ) : (f.shift m).shift n = f.shift (m + n) := by
  cases f <;> simp [Finding.shift, Nat.add_assoc]

section Search

variable {ρ : Type*} (verdict : ρ → Option Bool)

/-- Stop at the first rule that is not refuted. -/
def scan : List ρ → Finding
  | [] => .nothing
  | r :: rules =>
      match verdict r with
      | none => .unclear 0
      | some true => .found 0
      | some false => (scan rules).shift 1

/-- The search looks at a rule if all rules before it are refuted. -/
def Reached (rules : List ρ) (r : ρ) : Prop :=
  ∃ before after, rules = before ++ r :: after ∧ ∀ x ∈ before, verdict x = some false

variable {verdict}

/-- No rule is reached among none. -/
@[simp]
theorem not_reached_nil {r : ρ} : ¬ Reached verdict [] r := by
  rintro ⟨before, after, h, -⟩
  simp at h

/-- A rule is reached if it comes first, or if the first is refuted and it is reached after. -/
theorem reached_cons_iff {x r : ρ} {rules : List ρ} :
    Reached verdict (x :: rules) r ↔
      r = x ∨ (verdict x = some false ∧ Reached verdict rules r) := by
  constructor
  · rintro ⟨before, after, h, hbefore⟩
    cases before with
    | nil => exact .inl (List.cons.inj h).1.symm
    | cons y before =>
        simp only [List.cons_append, List.cons.injEq] at h
        refine .inr ⟨h.1 ▸ hbefore y List.mem_cons_self, before, after, h.2, ?_⟩
        exact fun z hz => hbefore z (List.mem_cons_of_mem _ hz)
  · intro h
    cases h with
    | inl h => exact ⟨[], rules, by rw [h]; rfl, by simp⟩
    | inr h =>
        obtain ⟨before, after, hsplit, hbefore⟩ := h.2
        refine ⟨x :: before, after, by rw [hsplit]; rfl, ?_⟩
        simpa [h.1] using hbefore

variable {ω : Type*} (holds : ω → ρ → Bool)

/-- A finding that no world contradicts: the rule found is the first that holds, nothing found
means that none holds, and no rule before an unclear one holds. -/
def Truthful (rules : List ρ) : Finding → Prop
  | .found k => ∀ w, rules.findIdx? (holds w) = some k
  | .unclear k => ∀ w, ∀ r ∈ rules.take k, holds w r = false
  | .nothing => ∀ w, rules.findIdx? (holds w) = none

variable {holds}

/-- In front of a rule that never holds, the finding for the rest decides. -/
theorem truthful_shift_iff [Nonempty ω] {r : ρ} {rules : List ρ} {f : Finding} :
    Truthful holds (r :: rules) (f.shift 1) ↔
      (∀ w, holds w r = false) ∧ Truthful holds rules f := by
  cases f with
  | found k =>
      simp only [Finding.shift, Truthful, List.findIdx?_cons, ← forall_and]
      refine forall_congr' fun w => ?_
      cases holds w r <;> simp
  | unclear k =>
      simp only [Finding.shift, Truthful, List.take_succ_cons, List.forall_mem_cons, forall_and]
  | nothing =>
      simp only [Finding.shift, Truthful, List.findIdx?_cons, ← forall_and]
      refine forall_congr' fun w => ?_
      cases holds w r <;> simp

/-- The finding of a search is truthful exactly if the verdict of every rule that the search
reaches is right in all worlds. -/
theorem truthful_scan_iff [Nonempty ω] {rules : List ρ} :
    Truthful holds rules (scan verdict rules) ↔ ∀ r, Reached verdict rules r →
      (verdict r = some false → ∀ w, holds w r = false) ∧
      (verdict r = some true → ∀ w, holds w r = true) := by
  induction rules with
  | nil => simp [scan, Truthful]
  | cons x rules ih =>
      simp only [reached_cons_iff, forall_eq_or_imp]
      unfold scan
      cases hx : verdict x with
      | none => simp [Truthful]
      | some b =>
          cases b with
          | false => simp [truthful_shift_iff, ih]
          | true => simp [Truthful, List.findIdx?_cons]

end Search

end Library
end DarkXray
