import Mathlib

/-!
# Staircases over integer time

A staircase is a list of half-open segments, each holding one level.  Segments
may overlap, nest and come in any order; the level at an instant is the highest
level of a segment that covers it, and zero where none does.

Main results:

- Theorem {lit}`exists_of_levelAt_pos`: a positive level is held by one segment.
- Theorem {lit}`levelAt_push`: extending a staircase on the right changes the
  level on the new piece only.
- Theorem {lit}`levelOver_eq_levelAt`: on a piece without an inner breakpoint the
  level is constant.
- Theorem {lit}`area_eq_sum`: the area right of an instant is a finite sum over
  any sufficiently long window.
-/

namespace DarkXray
namespace Library

/-- One level held from {lit}`start` up to, but excluding, {lit}`stop`. -/
structure Segment where
  start : ℤ
  stop : ℤ
  level : ℤ
deriving DecidableEq, Repr

namespace Staircase

/-- The highest level among the segments that pass a test, or zero. -/
def highest (p : Segment → Bool) : List Segment → ℤ
  | [] => 0
  | s :: L => if p s then max s.level (highest p L) else highest p L

/-- The segment covers the instant. -/
def covers (t : ℤ) (s : Segment) : Bool :=
  s.start ≤ t && t < s.stop

/-- The segment contains the whole piece from {lit}`a` to {lit}`b`. -/
def spans (a b : ℤ) (s : Segment) : Bool :=
  s.start ≤ a && b ≤ s.stop

/-- Level of a staircase at an instant. -/
def levelAt (L : List Segment) (t : ℤ) : ℤ :=
  highest (covers t) L

/-- Level of a staircase over a piece. -/
def levelOver (L : List Segment) (a b : ℤ) : ℤ :=
  highest (spans a b) L

/-- Append the piece from {lit}`a` to {lit}`b` to a staircase that is kept newest
segment first, prolonging the newest segment if it touches at the same level. -/
def push (L : List Segment) (a b n : ℤ) : List Segment :=
  match L with
  | [] => [⟨a, b, n⟩]
  | last :: rest =>
      if last.stop = a ∧ last.level = n then { last with stop := b } :: rest
      else ⟨a, b, n⟩ :: last :: rest

/-! ## Levels -/

/-- A segment covers the instants from its start to before its end. -/
@[simp]
theorem covers_iff {t : ℤ} {s : Segment} : covers t s = true ↔ s.start ≤ t ∧ t < s.stop := by
  simp [covers]

/-- A segment spans what lies between its start and its end. -/
@[simp]
theorem spans_iff {a b : ℤ} {s : Segment} : spans a b s = true ↔ s.start ≤ a ∧ b ≤ s.stop := by
  simp [spans]

/-- The highest level is not negative. -/
theorem highest_nonneg (p : Segment → Bool) (L : List Segment) : 0 ≤ highest p L := by
  induction L with
  | nil => exact le_rfl
  | cons s L ih =>
      simp only [highest]
      split
      · exact ih.trans (le_max_right _ _)
      · exact ih

/-- The highest level is attained, unless it is zero. -/
theorem exists_of_highest_pos {p : Segment → Bool} {L : List Segment} (h : 0 < highest p L) :
    ∃ s ∈ L, p s = true ∧ s.level = highest p L := by
  induction L with
  | nil => simp [highest] at h
  | cons x L ih =>
      simp only [highest] at h ⊢
      split at h <;> rename_i hp
      · rw [if_pos hp]
        rcases le_total x.level (highest p L) with hle | hle
        · rw [max_eq_right hle] at h ⊢
          obtain ⟨s, hs, hps, hlev⟩ := ih h
          exact ⟨s, List.mem_cons_of_mem _ hs, hps, hlev⟩
        · rw [max_eq_left hle]
          exact ⟨x, List.mem_cons_self, hp, rfl⟩
      · rw [if_neg hp]
        obtain ⟨s, hs, hps, hlev⟩ := ih h
        exact ⟨s, List.mem_cons_of_mem _ hs, hps, hlev⟩

/-- Only the tests on the stored segments matter. -/
theorem highest_congr {p q : Segment → Bool} {L : List Segment} (h : ∀ s ∈ L, p s = q s) :
    highest p L = highest q L := by
  induction L with
  | nil => rfl
  | cons x L ih =>
      simp only [highest, h x List.mem_cons_self,
        ih fun s hs => h s (List.mem_cons_of_mem _ hs)]

/-- The highest level of two lists is the higher one of theirs. -/
theorem highest_append (p : Segment → Bool) (L M : List Segment) :
    highest p (L ++ M) = max (highest p L) (highest p M) := by
  induction L with
  | nil => simp [highest, highest_nonneg]
  | cons x L ih =>
      simp only [List.cons_append, highest, ih]
      split
      · rw [max_assoc]
      · rfl

@[simp]
theorem highest_reverse (p : Segment → Bool) (L : List Segment) :
    highest p L.reverse = highest p L := by
  induction L with
  | nil => rfl
  | cons x L ih =>
      have hx : highest p [x] = if p x then max x.level 0 else 0 := rfl
      rw [List.reverse_cons, highest_append, ih, hx]
      simp only [highest]
      have := highest_nonneg p L
      split <;> grind

/-- The level at an instant is not negative. -/
theorem levelAt_nonneg (L : List Segment) (t : ℤ) : 0 ≤ levelAt L t :=
  highest_nonneg _ _

/-- A positive level is held by one covering segment. -/
theorem exists_of_levelAt_pos {L : List Segment} {t : ℤ} (h : 0 < levelAt L t) :
    ∃ s ∈ L, s.start ≤ t ∧ t < s.stop ∧ s.level = levelAt L t := by
  obtain ⟨s, hs, hp, hlev⟩ := exists_of_highest_pos h
  exact ⟨s, hs, (covers_iff.mp hp).1, (covers_iff.mp hp).2, hlev⟩

/-- Where no segment covers the instant the level is zero. -/
theorem levelAt_eq_zero {L : List Segment} {t : ℤ}
    (h : ∀ s ∈ L, s.start ≤ t → s.stop ≤ t) : levelAt L t = 0 := by
  by_contra hne
  have hpos : 0 < levelAt L t := lt_of_le_of_ne (levelAt_nonneg L t) (Ne.symm hne)
  obtain ⟨s, hs, hstart, hstop, _⟩ := exists_of_levelAt_pos hpos
  exact absurd (h s hs hstart) (by omega)

@[simp]
theorem levelAt_nil (t : ℤ) : levelAt [] t = 0 :=
  rfl

@[simp]
theorem levelAt_reverse (L : List Segment) (t : ℤ) : levelAt L.reverse t = levelAt L t :=
  highest_reverse _ _

/-- Level of a staircase of one segment. -/
theorem levelAt_singleton {s : Segment} (hs : 0 ≤ s.level) (t : ℤ) :
    levelAt [s] t = if s.start ≤ t ∧ t < s.stop then s.level else 0 := by
  simp [levelAt, highest, covers, hs]

/-- On a piece that no breakpoint cuts, the level is the same at every instant. -/
theorem levelOver_eq_levelAt {L : List Segment} {a b t : ℤ} (hat : a ≤ t) (htb : t < b)
    (hcut : ∀ s ∈ L, (s.start ≤ a ∨ b ≤ s.start) ∧ (s.stop ≤ a ∨ b ≤ s.stop)) :
    levelOver L a b = levelAt L t := by
  refine highest_congr fun s hs => ?_
  rw [Bool.eq_iff_iff, covers_iff, spans_iff]
  have := hcut s hs
  omega

/-! ## Extending on the right -/

/-- Extending a staircase that ends at or before {lit}`a` sets the level on the
new piece and nowhere else. -/
theorem levelAt_push {L : List Segment} {a b n : ℤ} (hab : a < b) (hn : 0 ≤ n)
    (hends : ∀ s ∈ L, s.start < s.stop ∧ s.stop ≤ a) (t : ℤ) :
    levelAt (push L a b n) t = if a ≤ t ∧ t < b then n else levelAt L t := by
  have hzero : a ≤ t → levelAt L t = 0 := fun hat =>
    levelAt_eq_zero fun s hs _ => (hends s hs).2.trans hat
  unfold push
  split
  · rw [levelAt_singleton (by exact hn)]
    simp
  · rename_i last rest
    have hlast := hends last List.mem_cons_self
    have hnew : ∀ s : Segment, levelAt (s :: rest) t =
        if s.start ≤ t ∧ t < s.stop then max s.level (levelAt rest t) else levelAt rest t := by
      intro s
      simp [levelAt, highest, covers]
    split <;> rename_i hmerge
    · -- the prolonged segment holds the new level on both pieces
      rw [hnew, hnew] at *
      by_cases hat : a ≤ t
      · have hrest : levelAt rest t = 0 :=
          levelAt_eq_zero fun s hs _ => ((hends s (List.mem_cons_of_mem _ hs)).2).trans hat
        simp only [hrest]
        have h1 : last.start ≤ t := by omega
        by_cases htb : t < b
        · simp [h1, htb, hat, hmerge.2, hn]
        · have hlt : ¬ t < last.stop := by omega
          simp [htb, hlt]
      · have hnot : ¬ (a ≤ t ∧ t < b) := fun h => hat h.1
        have htb : t < b := by omega
        have htl : t < last.stop := by omega
        simp [hat, htb, htl]
    · have hcons : levelAt (⟨a, b, n⟩ :: last :: rest) t =
          if a ≤ t ∧ t < b then max n (levelAt (last :: rest) t)
          else levelAt (last :: rest) t := by
        simp [levelAt, highest, covers]
      rw [hcons]
      split <;> rename_i hin
      · rw [hzero hin.1, max_eq_left hn]
      · rfl

/-- After the extension every segment ends at or before {lit}`b`. -/
theorem ends_push {L : List Segment} {a b n : ℤ} (hab : a < b)
    (hends : ∀ s ∈ L, s.start < s.stop ∧ s.stop ≤ a) :
    ∀ s ∈ push L a b n, s.start < s.stop ∧ s.stop ≤ b := by
  intro s hs
  unfold push at hs
  split at hs
  · rw [List.mem_singleton] at hs
    subst hs
    exact ⟨hab, le_rfl⟩
  · rename_i last rest
    have hlast := hends last List.mem_cons_self
    split at hs
    · rcases List.mem_cons.mp hs with rfl | hs
      · refine ⟨?_, le_rfl⟩
        show last.start < b
        omega
      · have := hends s (List.mem_cons_of_mem _ hs)
        omega
    · rcases List.mem_cons.mp hs with rfl | hs
      · exact ⟨hab, le_rfl⟩
      · have := hends s hs
        omega

/-! ## Order -/

/-- A staircase that is kept newest segment first: its segments are non-empty, raise the
level, do not overlap, and where two of them touch their levels differ. -/
structure Tidy (L : List Segment) : Prop where
  proper : ∀ s ∈ L, s.start < s.stop ∧ 0 < s.level
  sorted : L.Pairwise fun s s' => s'.stop ≤ s.start ∧ (s'.stop = s.start → s'.level ≠ s.level)

theorem tidy_nil : Tidy [] :=
  ⟨fun _ hs => absurd hs List.not_mem_nil, List.Pairwise.nil⟩

/-- Extending a tidy staircase that ends at or before {lit}`a` keeps it tidy. -/
theorem Tidy.push {L : List Segment} {a b n : ℤ} (h : Tidy L) (hab : a < b) (hn : 0 < n)
    (hends : ∀ s ∈ L, s.stop ≤ a) : Tidy (push L a b n) := by
  cases L with
  | nil =>
      refine ⟨fun s hs => ?_, List.pairwise_singleton _ _⟩
      obtain rfl := List.mem_singleton.mp hs
      exact ⟨hab, hn⟩
  | cons last rest =>
      have hlast := h.proper last List.mem_cons_self
      have hstop := hends last List.mem_cons_self
      have hrest := List.pairwise_cons.mp h.sorted
      by_cases hmerge : last.stop = a ∧ last.level = n
      · rw [Staircase.push, if_pos hmerge]
        refine ⟨?_, List.pairwise_cons.mpr ⟨hrest.1, hrest.2⟩⟩
        intro s hs
        rcases List.mem_cons.mp hs with rfl | hs
        · dsimp only
          omega
        · exact h.proper s (List.mem_cons_of_mem _ hs)
      · rw [Staircase.push, if_neg hmerge]
        refine ⟨?_, List.pairwise_cons.mpr ⟨?_, h.sorted⟩⟩
        · intro s hs
          rcases List.mem_cons.mp hs with rfl | hs
          · exact ⟨hab, hn⟩
          · exact h.proper s hs
        · intro s hs
          refine ⟨hends s hs, fun htouch => ?_⟩
          rcases List.mem_cons.mp hs with rfl | hs
          · exact fun hlevel => hmerge ⟨htouch, hlevel⟩
          · -- an older segment ends before the newest one starts
            have hold := (hrest.1 s hs).1
            dsimp only at htouch
            omega

/-- An extension starts where the staircase did, or at its own start. -/
theorem start_le_push {L : List Segment} {a b n lo : ℤ} (hlo : lo ≤ a)
    (hL : ∀ s ∈ L, lo ≤ s.start) : ∀ s ∈ push L a b n, lo ≤ s.start := by
  intro s hs
  cases L with
  | nil =>
      obtain rfl := List.mem_singleton.mp hs
      exact hlo
  | cons last rest =>
      rw [push] at hs
      split at hs
      · rcases List.mem_cons.mp hs with rfl | hs
        · exact hL last List.mem_cons_self
        · exact hL s (List.mem_cons_of_mem _ hs)
      · rcases List.mem_cons.mp hs with rfl | hs
        · exact hlo
        · exact hL s hs

/-! ## Area -/

/-- An instant after which the staircase is empty. -/
def horizon : List Segment → ℤ
  | [] => 0
  | s :: L => max s.stop (horizon L)

/-- Level-seconds of a staircase from an instant on. -/
noncomputable def area (L : List Segment) (lo : ℤ) : ℤ :=
  ∑ t ∈ Finset.Ico lo (horizon L), levelAt L t

/-- No segment ends after the horizon. -/
theorem stop_le_horizon {L : List Segment} {s : Segment} (hs : s ∈ L) : s.stop ≤ horizon L := by
  induction L with
  | nil => simp at hs
  | cons x L ih =>
      simp only [horizon]
      rcases List.mem_cons.mp hs with rfl | hs
      · exact le_max_left _ _
      · exact (ih hs).trans (le_max_right _ _)

private theorem sum_levelAt_of_le {L : List Segment} {lo hi hi' : ℤ} (hle : hi ≤ hi')
    (hL : ∀ s ∈ L, s.stop ≤ hi) :
    ∑ t ∈ Finset.Ico lo hi, levelAt L t = ∑ t ∈ Finset.Ico lo hi', levelAt L t := by
  refine Finset.sum_subset (Finset.Ico_subset_Ico le_rfl hle) fun t ht hnot => ?_
  rw [Finset.mem_Ico] at ht hnot
  exact levelAt_eq_zero fun s hs _ => (hL s hs).trans (by omega)

/-- The area is the sum over any window that reaches past every segment. -/
theorem area_eq_sum {L : List Segment} {lo hi : ℤ} (hL : ∀ s ∈ L, s.stop ≤ hi) :
    area L lo = ∑ t ∈ Finset.Ico lo hi, levelAt L t := by
  unfold area
  rcases le_total (horizon L) hi with hle | hle
  · exact sum_levelAt_of_le hle fun s hs => stop_le_horizon hs
  · exact (sum_levelAt_of_le hle hL).symm

theorem area_nil (lo : ℤ) : area [] lo = 0 := by
  simp [area]

/-- A constant summed over a piece is its length times the constant. -/
theorem sum_piece {a b : ℤ} (hab : a ≤ b) {f : ℤ → ℤ} {c : ℤ}
    (hf : ∀ t, a ≤ t → t < b → f t = c) : ∑ t ∈ Finset.Ico a b, f t = c * (b - a) := by
  have hconst : ∑ t ∈ Finset.Ico a b, f t = ∑ _t ∈ Finset.Ico a b, c :=
    Finset.sum_congr rfl fun t ht => hf t (Finset.mem_Ico.mp ht).1 (Finset.mem_Ico.mp ht).2
  rw [hconst, Finset.sum_const, Int.card_Ico, nsmul_eq_mul, mul_comm]
  congr 1
  omega

/-- Sums over adjacent pieces add up. -/
theorem sum_adjacent {a b c : ℤ} (hab : a ≤ b) (hbc : b ≤ c) (f : ℤ → ℤ) :
    ∑ t ∈ Finset.Ico a b, f t + ∑ t ∈ Finset.Ico b c, f t = ∑ t ∈ Finset.Ico a c, f t := by
  rw [← Finset.sum_union (Finset.Ico_disjoint_Ico_consecutive a b c),
    Finset.Ico_union_Ico_eq_Ico hab hbc]

end Staircase

end Library
end DarkXray
