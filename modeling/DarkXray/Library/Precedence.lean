import Mathlib.Data.List.Basic

/-!
# Lists of rules in order of precedence

The first rule that applies decides, and a default decides when none does.

Main results:

- Theorem {lit}`decision_append`: rules in front take precedence.
- Theorem {lit}`decision_flatMap_of_agree`: parts that decide alike, or not at all.
- Theorem {lit}`decide_drop_iff`: when rules may be left out from the middle, and what they say is
  still done.
-/

namespace DarkXray
namespace Library

variable {ρ β : Type*} {m : ρ → Bool} {out : ρ → β}

/-- What the first rule that applies says. -/
def decision (m : ρ → Bool) (out : ρ → β) (rules : List ρ) : Option β :=
  (rules.find? m).map out

/-- What the rules say, with a default. -/
def decideOr (m : ρ → Bool) (out : ρ → β) (default : β) (rules : List ρ) : β :=
  (decision m out rules).getD default

/-- Rules in front take precedence. -/
theorem decision_append (rules rules' : List ρ) :
    decision m out (rules ++ rules') = (decision m out rules).or (decision m out rules') := by
  unfold decision
  rw [List.find?_append]
  cases rules.find? m with
  | none => rfl
  | some rule => rfl

theorem decision_cons (rule : ρ) (rules : List ρ) :
    decision m out (rule :: rules) = if m rule then some (out rule) else decision m out rules := by
  unfold decision
  rw [List.find?_cons]
  by_cases h : m rule = true
  · simp [h]
  · simp [h]

/-- Rules none of which applies. -/
theorem decision_eq_none {rules : List ρ} (h : ∀ rule ∈ rules, m rule = false) :
    decision m out rules = none := by
  unfold decision
  rw [Option.map_eq_none_iff, List.find?_eq_none]
  simpa using h

/-- Parts decide in their order. -/
theorem decision_flatMap {α : Type*} {f : α → List ρ} {parts : List α} :
    decision m out (parts.flatMap f) = parts.findSome? fun a => decision m out (f a) := by
  induction parts with
  | nil => rfl
  | cons a parts ih =>
      rw [List.flatMap_cons, decision_append, List.findSome?_cons, ih]
      cases decision m out (f a) <;> rfl

/-- Parts that are made one by one decide as their sources say. -/
theorem decision_flatMap_of_forall₂ {α γ : Type*} {f : α → List ρ} {g : γ → Option β}
    {sources : List γ} {parts : List α}
    (h : List.Forall₂ (fun x a => decision m out (f a) = g x) sources parts) :
    decision m out (parts.flatMap f) = sources.findSome? g := by
  rw [decision_flatMap]
  induction h with
  | nil => rfl
  | cons hhead _ ih => rw [List.findSome?_cons, List.findSome?_cons, hhead, ih]

/-- Parts of which none decides. -/
theorem decision_flatMap_eq_none {α : Type*} {f : α → List ρ} {parts : List α}
    (h : ∀ a ∈ parts, decision m out (f a) = none) : decision m out (parts.flatMap f) = none := by
  induction parts with
  | nil => rfl
  | cons a parts ih =>
      rw [List.flatMap_cons, decision_append, h a List.mem_cons_self,
        ih fun b hb => h b (List.mem_cons_of_mem _ hb)]
      rfl

/-- Parts that decide alike, or not at all. -/
theorem decision_flatMap_of_agree {α : Type*} {f : α → List ρ} {parts : List α} {b : β}
    (hall : ∀ a ∈ parts, decision m out (f a) = none ∨ decision m out (f a) = some b)
    (hsome : ∃ a ∈ parts, decision m out (f a) = some b) :
    decision m out (parts.flatMap f) = some b := by
  induction parts with
  | nil =>
      obtain ⟨a, ha, _⟩ := hsome
      cases ha
  | cons a parts ih =>
      rw [List.flatMap_cons, decision_append]
      rcases hall a List.mem_cons_self with hnone | hdecides
      · rw [hnone, Option.none_or]
        obtain ⟨a', ha', hdecides⟩ := hsome
        rcases List.mem_cons.mp ha' with rfl | hmem
        · rw [hnone] at hdecides
          cases hdecides
        · exact ih (fun c hc => hall c (List.mem_cons_of_mem _ hc)) ⟨a', hmem, hdecides⟩
      · rw [hdecides]
        rfl

/-- Rules decide alike if the same of them apply, with the same outcome. -/
theorem decision_congr {σ : Type*} {m' : σ → Bool} {out' : σ → β} (f : ρ → σ) {rules : List ρ}
    (hm : ∀ rule ∈ rules, m' (f rule) = m rule) (hout : ∀ rule ∈ rules, out' (f rule) = out rule) :
    decision m' out' (rules.map f) = decision m out rules := by
  induction rules with
  | nil => rfl
  | cons rule rules ih =>
      rw [List.map_cons, decision_cons, decision_cons, hm rule List.mem_cons_self,
        hout rule List.mem_cons_self,
        ih (fun r hr => hm r (List.mem_cons_of_mem _ hr))
          (fun r hr => hout r (List.mem_cons_of_mem _ hr))]

theorem decision_congr_left {m' : ρ → Bool} {rules : List ρ}
    (hm : ∀ rule ∈ rules, m' rule = m rule) : decision m' out rules = decision m out rules := by
  have hmap : decision m' out (rules.map id) = decision m out rules :=
    decision_congr id hm fun _ _ => rfl
  rwa [List.map_id] at hmap

/-- Rules may be left out from the middle, and what they say is still done, exactly if the rules in
front say the same, or say nothing and the rest does. -/
theorem decide_drop_iff {default : β} {front middle rest : List ρ} :
    (decideOr m out default (front ++ rest) = decideOr m out default (front ++ middle ++ rest) ∧
      ∀ b, decision m out middle = some b → decideOr m out default (front ++ rest) = b) ↔
      ∀ b, decision m out middle = some b → decision m out front = some b ∨
        (decision m out front = none ∧ decideOr m out default rest = b) := by
  unfold decideOr
  rw [decision_append, decision_append, decision_append]
  cases decision m out middle with
  | none => simp
  | some b =>
      cases decision m out front with
      | none => simp
      | some b' => simp

end Library
end DarkXray
