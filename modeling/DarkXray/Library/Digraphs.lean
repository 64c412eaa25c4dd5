import Mathlib.Data.List.Perm.Subperm
import Mathlib.Logic.Relation

/-!
# Cycles of directed graphs

A finite directed graph is given by the list of its edges.  A depth-first walk that
remembers the nodes on its path finds out whether a node lies on, or leads to, a cycle; an
edge that is added to a graph without cycles closes one exactly if the walk from its source
comes back to a node of its path.

Main results:

- Theorem {lit}`revisits_of_cycle`: a walk from a node on a cycle comes back.
- Theorem {lit}`not_revisits`: without a cycle a walk ends, within the number of edges.
- Theorem {lit}`cycleFree_cons_iff`: a new edge closes a cycle exactly if the walk from its
  source comes back.
-/

namespace DarkXray
namespace Library

variable {κ : Type*}

/-- There is an edge between two nodes. -/
def Edge (edges : List (κ × κ)) (a b : κ) : Prop :=
  (a, b) ∈ edges

/-- No path of edges comes back to where it started. -/
def CycleFree (edges : List (κ × κ)) : Prop :=
  ∀ a, ¬ Relation.TransGen (Edge edges) a a

/-- The nodes that have an edge from a given one. -/
def successors [DecidableEq κ] (edges : List (κ × κ)) (a : κ) : List κ :=
  (edges.filter fun e => e.1 = a).map Prod.snd

/-- Walk along all edges: whether a node is met that is already on the path.  The fuel bounds
the length of the path; a walk that runs out of it is taken to come back. -/
def revisits [DecidableEq κ] (edges : List (κ × κ)) : ℕ → List κ → κ → Bool
  | 0, _, _ => true
  | fuel + 1, path, a =>
      decide (a ∈ path) || (successors edges a).any (revisits edges fuel (a :: path))

/-- A part of a graph without cycles has none. -/
theorem CycleFree.mono {edges edges' : List (κ × κ)} (h : CycleFree edges)
    (hsub : edges' ⊆ edges) : CycleFree edges' := by
  intro a hcycle
  exact h a (hcycle.lift id fun _ _ he => hsub he)

theorem cycleFree_nil : CycleFree ([] : List (κ × κ)) := by
  intro a hcycle
  obtain ⟨b, hab, -⟩ := Relation.TransGen.head'_iff.mp hcycle
  exact List.not_mem_nil hab

/-- A cycle of a graph with a new edge is an old one, or comes back to the source of the
edge. -/
theorem cycle_cons {edges : List (κ × κ)} {a b c : κ}
    (h : Relation.TransGen (Edge ((a, b) :: edges)) c c) :
    Relation.TransGen (Edge edges) c c ∨ Relation.TransGen (Edge ((a, b) :: edges)) a a := by
  -- a path either avoids the new edge, or leads to its source and from there to its end
  have hsplit : ∀ {x y : κ}, Relation.TransGen (Edge ((a, b) :: edges)) x y →
      Relation.TransGen (Edge edges) x y ∨
        (Relation.ReflTransGen (Edge ((a, b) :: edges)) x a ∧
          Relation.TransGen (Edge ((a, b) :: edges)) a y) := by
    intro x y hxy
    induction hxy with
    | single hedge =>
        rcases List.mem_cons.mp hedge with hnew | hold
        · obtain ⟨rfl, rfl⟩ := Prod.mk.inj hnew
          exact Or.inr ⟨Relation.ReflTransGen.refl, Relation.TransGen.single hedge⟩
        · exact Or.inl (Relation.TransGen.single hold)
    | tail hpre hedge ih =>
        rcases List.mem_cons.mp hedge with hnew | hold
        · obtain ⟨rfl, rfl⟩ := Prod.mk.inj hnew
          exact Or.inr ⟨hpre.to_reflTransGen, Relation.TransGen.single hedge⟩
        · rcases ih with hold' | ⟨hto, hfrom⟩
          · exact Or.inl (hold'.tail hold)
          · exact Or.inr ⟨hto, hfrom.tail hedge⟩
  rcases hsplit h with hold | ⟨hto, hfrom⟩
  · exact Or.inl hold
  · exact Or.inr (hfrom.trans_left hto)

section Walks

variable [DecidableEq κ] {edges : List (κ × κ)}

theorem mem_successors {a b : κ} : b ∈ successors edges a ↔ Edge edges a b := by
  unfold successors Edge
  constructor
  · intro h
    obtain ⟨e, he, rfl⟩ := List.mem_map.mp h
    obtain ⟨hmem, hsource⟩ := List.mem_filter.mp he
    rw [decide_eq_true_eq] at hsource
    subst hsource
    exact hmem
  · intro h
    exact List.mem_map.mpr ⟨(a, b), List.mem_filter.mpr ⟨h, by simp⟩, rfl⟩

theorem revisits_succ_eq_false {fuel : ℕ} {path : List κ} {a : κ} :
    revisits edges (fuel + 1) path a = false ↔
      a ∉ path ∧ ∀ b, Edge edges a b → revisits edges fuel (a :: path) b = false := by
  simp [revisits, mem_successors]

/-- A walk that ends meets no node of its path. -/
theorem not_mem_of_not_revisits {fuel : ℕ} {path : List κ} {a : κ}
    (h : revisits edges fuel path a = false) : a ∉ path := by
  cases fuel with
  | zero => cases h
  | succ fuel => exact (revisits_succ_eq_false.mp h).1

/-- A walk from a node on a cycle comes back. -/
theorem revisits_of_cycle {a : κ} (h : Relation.TransGen (Edge edges) a a) (fuel : ℕ) :
    revisits edges fuel [] a = true := by
  -- whatever the walk reaches, its first node is on the path
  have hreach : ∀ {b : κ}, revisits edges fuel [] a = false →
      Relation.TransGen (Edge edges) a b →
        ∃ fuel' path, a ∈ path ∧ revisits edges fuel' path b = false := by
    intro b hends hab
    induction hab with
    | single hedge =>
        cases fuel with
        | zero => cases hends
        | succ fuel =>
            exact ⟨fuel, [a], List.mem_singleton_self a,
              (revisits_succ_eq_false.mp hends).2 _ hedge⟩
    | tail _ hedge ih =>
        obtain ⟨fuel', path, hmem, hwalk⟩ := ih
        cases fuel' with
        | zero => cases hwalk
        | succ fuel' =>
            exact ⟨fuel', _, List.mem_cons_of_mem _ hmem,
              (revisits_succ_eq_false.mp hwalk).2 _ hedge⟩
  cases hwalk : revisits edges fuel [] a with
  | true => rfl
  | false =>
      obtain ⟨fuel', path, hmem, hends⟩ := hreach hwalk h
      exact absurd hmem (not_mem_of_not_revisits hends)

/-- Without a cycle a walk ends, within the number of edges. -/
theorem not_revisits (h : CycleFree edges) {fuel : ℕ} (hfuel : edges.length < fuel) (a : κ) :
    revisits edges fuel [] a = false := by
  have hwalk : ∀ (fuel : ℕ) (path : List κ) (a : κ), path.Nodup →
      path ⊆ edges.map Prod.fst → (∀ b ∈ path, Relation.TransGen (Edge edges) b a) →
        edges.length < fuel + path.length → revisits edges fuel path a = false := by
    intro fuel
    induction fuel with
    | zero =>
        intro path a hnodup hsub _ hlength
        have hle : path.length ≤ (edges.map Prod.fst).length := (hnodup.subperm hsub).length_le
        rw [List.length_map] at hle
        omega
    | succ fuel ih =>
        intro path a hnodup hsub hpath hlength
        have hfresh : a ∉ path := fun hmem => h a (hpath a hmem)
        refine revisits_succ_eq_false.mpr ⟨hfresh, fun b hedge => ?_⟩
        have hsource : a ∈ edges.map Prod.fst := List.mem_map.mpr ⟨(a, b), hedge, rfl⟩
        apply ih (a :: path) b
        · exact List.nodup_cons.mpr ⟨hfresh, hnodup⟩
        · exact List.cons_subset.mpr ⟨hsource, hsub⟩
        · intro c hc
          rcases List.mem_cons.mp hc with rfl | hold
          · exact Relation.TransGen.single hedge
          · exact (hpath c hold).tail hedge
        · simp only [List.length_cons]
          omega
  exact hwalk fuel [] a List.nodup_nil (List.nil_subset _) (by simp) (by simpa using hfuel)

/-- A new edge closes a cycle exactly if the walk from its source comes back. -/
theorem cycleFree_cons_iff {a b : κ} (h : CycleFree edges) :
    CycleFree ((a, b) :: edges) ↔
      revisits ((a, b) :: edges) (edges.length + 2) [] a = false := by
  constructor
  · intro hfree
    exact not_revisits hfree (by simp) a
  · intro hwalk c hcycle
    rcases cycle_cons hcycle with hold | hround
    · exact h c hold
    · rw [revisits_of_cycle hround] at hwalk
      cases hwalk

end Walks

end Library
end DarkXray
