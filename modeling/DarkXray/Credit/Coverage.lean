import DarkXray.Credit.Entitlement

/-!
# The sweep buys exactly the uncovered capacity

{lit}`cover` walks over the pieces between neighbouring breakpoints.  On such a
piece the stored tier and the requested tier are constant, so each round of the
loop decides the piece as a whole.

Main results:

- Theorem {lit}`cover_ok`: from {lit}`start` on, the tier of the result is the
  higher one of the stored and the requested tier, and the reported capacity is
  the sum of the missing tiers over all seconds.
- Theorem {lit}`Covered.area_eq`: the reported capacity is the growth of the
  stored capacity.
- Theorem {lit}`Covered.exists_segment`: requested service is held by a segment.
- Theorem {lit}`cover_exact`: the result is in order, and the price is the sum of what was added
  to the tiers.
-/

namespace DarkXray
namespace Credit

open Library Library.Staircase Policy

/-- The tier that an edit asks for at an instant. -/
def requestAt (start stop ips t : ℤ) : ℤ :=
  if start ≤ t ∧ t < stop then ips else 0

/-- Neither the segments nor the requested time have an end inside the piece. -/
def Uncut (segments : List Segment) (start stop a b : ℤ) : Prop :=
  (∀ s ∈ segments, (s.start ≤ a ∨ b ≤ s.start) ∧ (s.stop ≤ a ∨ b ≤ s.stop)) ∧
    (start ≤ a ∨ b ≤ start) ∧ (stop ≤ a ∨ b ≤ stop)

/-- What the sweep guarantees after all pieces before {lit}`p`. -/
structure Swept (segments : List Segment) (start stop ips lo p : ℤ) (w : Sweep) : Prop where
  ends : ∀ s ∈ w.merged, s.start < s.stop ∧ s.stop ≤ p
  tier : ∀ t, lo ≤ t → t < p →
    levelAt w.merged t = max (levelAt segments t) (requestAt start stop ips t)
  before : ∀ t < lo, levelAt w.merged t = 0
  added : w.added =
    ∑ t ∈ Finset.Ico lo p, max 0 (requestAt start stop ips t - levelAt segments t)

variable {segments : List Segment} {start stop ips : ℤ}

/-! ## One piece -/

theorem requestAt_of_uncut {a b t : ℤ} (h : Uncut segments start stop a b) (hat : a ≤ t)
    (htb : t < b) :
    requestAt start stop ips t = if start ≤ a ∧ b ≤ stop then ips else 0 := by
  have := h.2
  unfold requestAt
  congr 1
  rw [eq_iff_iff]
  omega

/-- One round of the loop extends the guarantee by its piece. -/
theorem Swept.piece {lo a b : ℤ} {w : Sweep} (hw : Swept segments start stop ips lo a w)
    (hlo : lo ≤ a) (hab : a < b) (hcut : Uncut segments start stop a b) :
    Swept segments start stop ips lo b (sweepPiece segments start stop ips w (a, b)) := by
  have hold : ∀ t, a ≤ t → t < b → levelAt segments t = levelOver segments a b :=
    fun t hat htb => (levelOver_eq_levelAt hat htb hcut.1).symm
  have hreq : ∀ t, a ≤ t → t < b →
      requestAt start stop ips t = if start ≤ a ∧ b ≤ stop then ips else 0 :=
    fun t hat htb => requestAt_of_uncut hcut hat htb
  have hpos : 0 ≤ levelOver segments a b := highest_nonneg _ _
  unfold sweepPiece
  simp only [if_neg (not_le.mpr hab)]
  generalize hr : (if start ≤ a ∧ b ≤ stop then ips else 0) = requested at *
  generalize ho : levelOver segments a b = old at *
  have htier : ∀ t, levelAt
      (if max old requested ≠ 0 then push w.merged a b (max old requested) else w.merged) t =
        if a ≤ t ∧ t < b then max old requested else levelAt w.merged t := by
    intro t
    split <;> rename_i hnew
    · apply levelAt_push hab (le_max_of_le_left hpos) hw.ends
    · split <;> rename_i hin
      · rw [not_not.mp hnew]
        exact levelAt_eq_zero fun s hs _ => (hw.ends s hs).2.trans hin.1
      · rfl
  refine ⟨?_, ?_, ?_, ?_⟩
  · split
    · exact ends_push hab hw.ends
    · intro s hs
      have := hw.ends s hs
      omega
  · intro t hlot htb
    rw [htier]
    split <;> rename_i hin
    · rw [hold t hin.1 hin.2, hreq t hin.1 hin.2]
    · exact hw.tier t hlot (by omega)
  · intro t htlo
    rw [htier, if_neg (by omega)]
    exact hw.before t htlo
  · have hpiece : ∑ t ∈ Finset.Ico a b,
        max 0 (requestAt start stop ips t - levelAt segments t) =
          max 0 (requested - old) * (b - a) :=
      sum_piece hab.le fun t hat htb => by rw [hold t hat htb, hreq t hat htb]
    rw [← sum_adjacent hlo hab.le, ← hw.added, hpiece]

/-! ## All pieces -/

/-- The points of a sweep are strictly increasing and contain every end. -/
structure CutPoints (segments : List Segment) (start stop : ℤ) (points : List ℤ) : Prop where
  sorted : points.Pairwise (· < ·)
  ends : ∀ s ∈ segments, s.start ∈ points ∧ s.stop ∈ points
  request : start ∈ points ∧ stop ∈ points

/-- An end that is a point does not lie strictly between neighbouring points. -/
private theorem not_between {before after : List ℤ} {a b x : ℤ}
    (hsorted : (before ++ a :: b :: after).Pairwise (· < ·)) (hx : x ∈ before ++ a :: b :: after) :
    x ≤ a ∨ b ≤ x := by
  rw [List.pairwise_append] at hsorted
  rcases hsorted with ⟨_, htail, hacross⟩
  rw [List.pairwise_cons, List.pairwise_cons] at htail
  rcases htail with ⟨_, hb, _⟩
  rcases List.mem_append.mp hx with hx | hx
  · exact .inl (hacross x hx a List.mem_cons_self).le
  · rcases List.mem_cons.mp hx with rfl | hx
    · exact .inl le_rfl
    · rcases List.mem_cons.mp hx with rfl | hx
      · exact .inr le_rfl
      · exact .inr (hb x hx).le

/-- The loop, started at any point of the sorted list with the guarantee for the
points before it, ends with the guarantee for the last point. -/
private theorem Swept.run {lo : ℤ} :
    ∀ {after before : List ℤ} {a : ℤ} {w : Sweep},
      CutPoints segments start stop (before ++ a :: after) → lo ≤ a →
      Swept segments start stop ips lo a w →
      Swept segments start stop ips lo ((a :: after).getLast (List.cons_ne_nil _ _))
        (sweep segments start stop ips (a :: after) w) := by
  intro after
  induction after with
  | nil =>
      intro before a w _ _ hw
      exact hw
  | cons b after ih =>
      intro before a w hcut hlo hw
      have hab : a < b := by
        have := (List.pairwise_append.mp hcut.sorted).2.1
        exact (List.pairwise_cons.mp this).1 b List.mem_cons_self
      have huncut : Uncut segments start stop a b :=
        ⟨fun s hs => ⟨not_between hcut.sorted (hcut.ends s hs).1,
            not_between hcut.sorted (hcut.ends s hs).2⟩,
          not_between hcut.sorted hcut.request.1, not_between hcut.sorted hcut.request.2⟩
      have hcut' : CutPoints segments start stop ((before ++ [a]) ++ b :: after) := by
        simpa using hcut
      have hnext := ih hcut' (by omega) (hw.piece hlo hab huncut)
      simpa [sweep, List.getLast_cons] using hnext

theorem mem_breakpoints {x : ℤ} :
    x ∈ breakpoints segments start stop ↔
      x = start ∨ x = stop ∨ ∃ s ∈ segments, x = s.start ∨ x = s.stop := by
  simp [breakpoints]

theorem cutPoints_breakpoints (segments : List Segment) (start stop : ℤ) :
    CutPoints segments start stop (breakpoints segments start stop) := by
  refine ⟨?_, fun s hs => ⟨mem_breakpoints.mpr ?_, mem_breakpoints.mpr ?_⟩,
    mem_breakpoints.mpr ?_, mem_breakpoints.mpr ?_⟩
  · have hnodup : (breakpoints segments start stop).Nodup :=
      (List.perm_insertionSort _ _).nodup_iff.mpr (List.nodup_dedup _)
    have hsorted := List.pairwise_insertionSort (· ≤ ·)
      (start :: stop :: segments.flatMap fun s => [s.start, s.stop]).dedup
    exact hsorted.and hnodup |>.imp fun ⟨hle, hne⟩ => lt_of_le_of_ne hle hne
  · exact .inr (.inr ⟨s, hs, .inl rfl⟩)
  · exact .inr (.inr ⟨s, hs, .inr rfl⟩)
  · exact .inl rfl
  · exact .inr (.inl rfl)

/-! ## The whole sweep -/

theorem mem_clip {s : Segment} :
    s ∈ clip start segments ↔
      ∃ x ∈ segments, start < x.stop ∧ 0 < x.level ∧ s = ⟨max start x.start, x.stop, x.level⟩ := by
  simp only [clip, List.mem_map, List.mem_filter, Bool.and_eq_true, decide_eq_true_eq]
  constructor
  · rintro ⟨x, ⟨hx, hstop, hlevel⟩, rfl⟩
    exact ⟨x, hx, hstop, hlevel, rfl⟩
  · rintro ⟨x, hx, hstop, hlevel, rfl⟩
    exact ⟨x, ⟨hx, hstop, hlevel⟩, rfl⟩

/-- Clipping does not change the tier from {lit}`start` on. -/
theorem levelAt_clip {t : ℤ} (ht : start ≤ t) (segments : List Segment) :
    levelAt (clip start segments) t = levelAt segments t := by
  induction segments with
  | nil => rfl
  | cons x segments ih =>
      have hpos := levelAt_nonneg segments t
      by_cases hkeep : start < x.stop ∧ 0 < x.level
      · have hclip : clip start (x :: segments) =
            { x with start := max start x.start } :: clip start segments := by
          simp [clip, hkeep]
        rw [hclip]
        simp only [levelAt, highest] at ih ⊢
        rw [ih]
        simp [covers, ht]
      · have hclip : clip start (x :: segments) = clip start segments := by
          simp only [clip]
          rw [List.filter_cons_of_neg (by simpa using hkeep)]
        rw [hclip, ih]
        simp only [levelAt, highest] at hpos ⊢
        split <;> rename_i hin
        · rw [covers_iff] at hin
          have hlevel : x.level ≤ 0 := by omega
          exact (max_eq_right (hlevel.trans hpos)).symm
        · rfl

/-- What {lit}`cover` returns, for a window that ends at {lit}`hi`. -/
structure Covered (segments : List Segment) (start stop ips hi : ℤ) (merged : List Segment)
    (added : ℤ) : Prop where
  ends : ∀ s ∈ merged, s.start < s.stop ∧ s.stop ≤ hi
  request : stop ≤ hi
  tier : ∀ t, start ≤ t →
    levelAt merged t = max (levelAt segments t) (requestAt start stop ips t)
  before : ∀ t < start, levelAt merged t = 0
  added : added =
    ∑ t ∈ Finset.Ico start hi, max 0 (requestAt start stop ips t - levelAt segments t)

/-- The sweep over the breakpoints starts at {lit}`start`. -/
private theorem breakpoints_clip (segments : List Segment) (hle : start ≤ stop) :
    ∃ after, breakpoints (clip start segments) start stop = start :: after := by
  have hcut := cutPoints_breakpoints (clip start segments) start stop
  cases hpoints : breakpoints (clip start segments) start stop with
  | nil =>
      rw [hpoints] at hcut
      exact absurd hcut.request.1 (by simp)
  | cons p after =>
      have hp : p = start := by
        apply le_antisymm
        · rw [hpoints] at hcut
          rcases List.mem_cons.mp hcut.request.1 with heq | htail
          · exact heq.ge
          · exact ((List.pairwise_cons.mp hcut.sorted).1 start htail).le
        · have hmem : p ∈ breakpoints (clip start segments) start stop := by simp [hpoints]
          rcases mem_breakpoints.mp hmem with rfl | rfl | ⟨s, hs, hends⟩
          · exact le_rfl
          · exact hle
          · rcases mem_clip.mp hs with ⟨x, _, hstop, _, rfl⟩
            simp only at hends
            omega
      exact ⟨after, by rw [hp]⟩

/-- {lit}`cover` keeps the stored tiers, adds the requested one and counts what
was missing. -/
theorem cover_ok {merged : List Segment} {added : ℤ} (hle : start ≤ stop)
    (h : cover segments start stop ips = .ok (merged, added)) :
    ∃ hi, Covered segments start stop ips hi merged added := by
  simp only [cover] at h
  split at h
  · simp at h
  · rw [Except.ok.injEq, Prod.mk.injEq] at h
    rcases h with ⟨rfl, rfl⟩
    rcases breakpoints_clip segments hle with ⟨after, hpoints⟩
    have hcut := cutPoints_breakpoints (clip start segments) start stop
    rw [hpoints] at hcut ⊢
    have hinit : Swept (clip start segments) start stop ips start start ⟨[], 0⟩ :=
      ⟨by simp, fun t hlo hhi => absurd hlo (not_le.mpr hhi), fun _ _ => rfl, by simp⟩
    have hrun : CutPoints (clip start segments) start stop ([] ++ start :: after) := hcut
    have hswept := Swept.run hrun le_rfl hinit
    have hlast : ∀ x ∈ start :: after, x ≤ (start :: after).getLast (List.cons_ne_nil _ _) :=
      fun x hx => (hcut.sorted.imp le_of_lt).rel_getLast hx
    generalize (start :: after).getLast (List.cons_ne_nil _ _) = hi at hswept hlast
    refine ⟨hi, ?_, ?_, ?_, ?_, ?_⟩
    · intro s hs
      exact hswept.ends s (List.mem_reverse.mp hs)
    · exact hlast _ hcut.request.2
    · intro t ht
      rw [levelAt_reverse, ← levelAt_clip ht segments]
      by_cases hthi : t < hi
      · exact hswept.tier t ht hthi
      · have hmerged : levelAt (sweep (clip start segments) start stop ips (start :: after)
            ⟨[], 0⟩).merged t = 0 :=
          levelAt_eq_zero fun s hs _ => (hswept.ends s hs).2.trans (not_lt.mp hthi)
        have hold : levelAt (clip start segments) t = 0 :=
          levelAt_eq_zero fun s hs _ =>
            (hlast _ (hcut.ends s hs).2).trans (not_lt.mp hthi)
        have hreq : requestAt start stop ips t = 0 := by
          have := hlast _ hcut.request.2
          exact if_neg (by omega)
        rw [hmerged, hold, hreq, max_self]
    · intro t ht
      rw [levelAt_reverse]
      exact hswept.before t ht
    · rw [hswept.added]
      refine Finset.sum_congr rfl fun t ht => ?_
      rw [levelAt_clip (Finset.mem_Ico.mp ht).1]

namespace Covered

variable {hi : ℤ} {merged : List Segment} {added : ℤ}

/-- A purchase is never negative. -/
theorem added_nonneg (h : Covered segments start stop ips hi merged added) : 0 ≤ added := by
  rw [h.added]
  exact Finset.sum_nonneg fun _ _ => le_max_left _ _

/-- The purchase is the growth of the capacity that is still ahead. -/
theorem area_eq (h : Covered segments start stop ips hi merged added) :
    area merged start = area segments start + added := by
  have hmerged : area merged start =
      ∑ t ∈ Finset.Ico start (max hi (horizon segments)), levelAt merged t :=
    area_eq_sum fun s hs => (h.ends s hs).2.trans (le_max_left _ _)
  have hold : area segments start =
      ∑ t ∈ Finset.Ico start (max hi (horizon segments)), levelAt segments t :=
    area_eq_sum fun s hs => (stop_le_horizon hs).trans (le_max_right _ _)
  have hadded : added = ∑ t ∈ Finset.Ico start (max hi (horizon segments)),
      max 0 (requestAt start stop ips t - levelAt segments t) := by
    rw [h.added]
    refine Finset.sum_subset (Finset.Ico_subset_Ico le_rfl (le_max_left _ _)) ?_
    intro t ht hnot
    rw [Finset.mem_Ico] at ht hnot
    have hreq : requestAt start stop ips t = 0 := by
      have := h.request
      exact if_neg (by omega)
    have := levelAt_nonneg segments t
    omega
  rw [hmerged, hold, hadded, ← Finset.sum_add_distrib]
  refine Finset.sum_congr rfl fun t ht => ?_
  rw [h.tier t (Finset.mem_Ico.mp ht).1]
  omega

/-- Where service is requested, one stored segment grants at least its tier. -/
theorem exists_segment (h : Covered segments start stop ips hi merged added) (hips : 0 < ips)
    {t : ℤ} (hstart : start ≤ t) (hstop : t < stop) :
    ∃ s ∈ merged, s.start ≤ t ∧ t < s.stop ∧ ips ≤ s.level := by
  have hreq : requestAt start stop ips t = ips := if_pos ⟨hstart, hstop⟩
  have htier := h.tier t hstart
  rw [hreq] at htier
  have hge : ips ≤ levelAt merged t := htier ▸ le_max_right _ _
  rcases exists_of_levelAt_pos (hips.trans_le hge) with ⟨s, hs, hbegin, hend, hlevel⟩
  exact ⟨s, hs, hbegin, hend, hlevel ▸ hge⟩

end Covered

/-! ## The order of the result -/

/-- One round of the loop keeps the result in order. -/
theorem sweepPiece_tidy (segments : List Segment) (start stop ips : ℤ) {lo a b : ℤ} {w : Sweep}
    (hw : Tidy w.merged) (hab : a < b) (hlo : lo ≤ a) (hends : ∀ s ∈ w.merged, lo ≤ s.start ∧ s.stop ≤ a) :
    Tidy (sweepPiece segments start stop ips w (a, b)).merged ∧
      ∀ s ∈ (sweepPiece segments start stop ips w (a, b)).merged, lo ≤ s.start ∧ s.stop ≤ b := by
  have hpos : 0 ≤ levelOver segments a b := highest_nonneg _ _
  unfold sweepPiece
  simp only [if_neg (not_le.mpr hab)]
  generalize (if start ≤ a ∧ b ≤ stop then ips else 0) = requested
  by_cases hnew : max (levelOver segments a b) requested ≠ 0
  · rw [if_pos hnew]
    have hlevel : 0 < max (levelOver segments a b) requested := by omega
    have hstops := ends_push (n := max (levelOver segments a b) requested) hab
      fun s hs => ⟨(hw.proper s hs).1, (hends s hs).2⟩
    refine ⟨hw.push hab hlevel fun s hs => (hends s hs).2, fun s hs => ⟨?_, (hstops s hs).2⟩⟩
    exact start_le_push hlo (fun s hs => (hends s hs).1) s hs
  · rw [if_neg hnew]
    refine ⟨hw, fun s hs => ?_⟩
    have := hends s hs
    omega

/-- The loop over increasing points keeps the result in order. -/
theorem sweep_tidy (segments : List Segment) (start stop ips : ℤ) {lo : ℤ} :
    ∀ {after : List ℤ} {a : ℤ} {w : Sweep}, (a :: after).Pairwise (· < ·) → lo ≤ a →
      Tidy w.merged → (∀ s ∈ w.merged, lo ≤ s.start ∧ s.stop ≤ a) →
        Tidy (sweep segments start stop ips (a :: after) w).merged ∧
          ∀ s ∈ (sweep segments start stop ips (a :: after) w).merged, lo ≤ s.start := by
  intro after
  induction after with
  | nil =>
      intro a w _ _ hw hends
      exact ⟨hw, fun s hs => (hends s hs).1⟩
  | cons b after ih =>
      intro a w hsorted hlo hw hends
      obtain ⟨hfirst, hrest⟩ := List.pairwise_cons.mp hsorted
      have hab : a < b := hfirst b List.mem_cons_self
      obtain ⟨hnext, hnextEnds⟩ :=
        sweepPiece_tidy segments start stop ips hw hab hlo hends
      have := ih hrest (by omega) hnext hnextEnds
      simpa [sweep] using this

/-- The segments are sorted by time, do not overlap, and differ where they touch. -/
def Sorted (merged : List Segment) : Prop :=
  merged.Pairwise fun s s' => s.stop ≤ s'.start ∧ (s.stop = s'.start → s.level ≠ s'.level)

theorem cover_sorted {merged : List Segment} {added : ℤ} (hle : start ≤ stop)
    (h : cover segments start stop ips = .ok (merged, added)) :
    Sorted merged ∧ ∀ s ∈ merged, start ≤ s.start ∧ s.start < s.stop := by
  simp only [cover] at h
  split at h
  · simp at h
  · rw [Except.ok.injEq, Prod.mk.injEq] at h
    rcases h with ⟨rfl, rfl⟩
    rcases breakpoints_clip segments hle with ⟨after, hpoints⟩
    have hcut := cutPoints_breakpoints (clip start segments) start stop
    rw [hpoints] at hcut ⊢
    obtain ⟨htidy, hstarts⟩ := sweep_tidy (clip start segments) start stop ips (w := ⟨[], 0⟩)
      hcut.sorted le_rfl tidy_nil (by simp)
    refine ⟨?_, fun s hs => ?_⟩
    · rw [Sorted, List.pairwise_reverse]
      exact htidy.sorted
    · have hmem := List.mem_reverse.mp hs
      exact ⟨hstarts s hmem, (htidy.proper s hmem).1⟩

/-- The purchase is the growth of the tiers, summed over all seconds. -/
theorem Covered.added_eq_finsum {hi added : ℤ} {merged : List Segment}
    (h : Covered segments start stop ips hi merged added) :
    added = ∑ᶠ t ∈ Set.Ici start, (levelAt merged t - levelAt segments t) := by
  have hgrowth : ∀ t ∈ Set.Ici start, levelAt merged t - levelAt segments t =
      max 0 (requestAt start stop ips t - levelAt segments t) := by
    intro t ht
    rw [h.tier t ht]
    omega
  have hsupport : Set.Ici start ∩ Function.support (fun t =>
        max 0 (requestAt start stop ips t - levelAt segments t)) =
      ↑(Finset.Ico start hi) ∩ Function.support (fun t =>
        max 0 (requestAt start stop ips t - levelAt segments t)) := by
    ext t
    simp only [Set.mem_inter_iff, Set.mem_Ici, Function.mem_support, Finset.coe_Ico, Set.mem_Ico]
    refine and_congr_left fun hne => ⟨fun hstart => ⟨hstart, ?_⟩, fun hin => hin.1⟩
    by_contra hhi
    have hreq : requestAt start stop ips t = 0 := by
      have := h.request
      exact if_neg (by omega)
    have := levelAt_nonneg segments t
    omega
  rw [finsum_mem_congr rfl hgrowth, finsum_mem_eq_sum_of_inter_support_eq _ hsupport, h.added]

/-- {lit}`_cover` buys exactly the uncovered capacity. -/
theorem cover_exact {merged : List Segment} {added : ℤ} (hle : start ≤ stop)
    (h : cover segments start stop ips = .ok (merged, added)) :
    (∀ t, start ≤ t →
        levelAt merged t = max (levelAt segments t) (if t < stop then ips else 0)) ∧
      (∀ s ∈ merged, start ≤ s.start ∧ s.start < s.stop) ∧ Sorted merged ∧
      added = ∑ᶠ t ∈ Set.Ici start, (levelAt merged t - levelAt segments t) ∧
      ((∀ t, start ≤ t → t < stop → ips ≤ levelAt segments t) → added = 0) := by
  obtain ⟨hi, hcovered⟩ := cover_ok hle h
  obtain ⟨hsorted, hsegments⟩ := cover_sorted hle h
  refine ⟨fun t ht => ?_, hsegments, hsorted, hcovered.added_eq_finsum, fun hall => ?_⟩
  · rw [hcovered.tier t ht, requestAt]
    by_cases htstop : t < stop
    · simp [ht, htstop]
    · simp [htstop]
  · rw [hcovered.added]
    refine Finset.sum_eq_zero fun t ht => ?_
    obtain ⟨hstart, -⟩ := Finset.mem_Ico.mp ht
    have hpos := levelAt_nonneg segments t
    rw [requestAt]
    by_cases htstop : t < stop
    · have := hall t hstart htstop
      simp [hstart, htstop, this]
    · simp [htstop, hpos]

theorem cover_exact_nested :
    ∃ merged added, cover [⟨0, 10, 2⟩, ⟨4, 20, 1⟩] 5 15 3 = .ok (merged, added) ∧
      (∀ s ∈ merged, 5 ≤ s.start ∧ s.start < s.stop) ∧
      added = ∑ᶠ t ∈ Set.Ici 5, (levelAt merged t - levelAt [⟨0, 10, 2⟩, ⟨4, 20, 1⟩] t) := by
  have hcover : cover [⟨0, 10, 2⟩, ⟨4, 20, 1⟩] 5 15 3 = .ok ([⟨5, 15, 3⟩, ⟨15, 20, 1⟩], 15) := by
    decide +kernel
  obtain ⟨-, hsegments, -, hadded, -⟩ := cover_exact (by decide) hcover
  exact ⟨_, _, hcover, hsegments, hadded⟩

end Credit
end DarkXray
