import Mathlib.Data.List.Induction

/-!
# Labelled runs and their invariants

A system is given by a step relation {lit}`σ → ε → σ → Prop`: from a state, one
labelled event leads to a next state.  This file defines finite runs, the
induction rules that every safety result of the development goes through, and
the guarded systems in which each step meets an extra condition.

Main results:

- Theorem {lit}`Run.invariant`: a property of the start that every step
  preserves holds at the end of every run.
- Theorem {lit}`Run.related`: a reflexive and transitive relation that every
  step respects relates the start of a run to its end.
- Theorem {lit}`Run.earlier`: an entry of a log witnesses the earlier state that it
  was made in.
- Theorem {lit}`run_append_iff`: a run splits at every point of its event list.
- Theorem {lit}`Run.of_eval`: an executed event list of a deterministic system
  is a run of its step relation.
-/

namespace DarkXray
namespace Library

variable {σ ε : Type*}

/-- Finite labelled runs, with the newest event last. -/
inductive Run (step : σ → ε → σ → Prop) (s : σ) : List ε → σ → Prop
  | nil : Run step s [] s
  | snoc {es : List ε} {t u : σ} {e : ε} :
      Run step s es t → step t e u → Run step s (es ++ [e]) u

/-- The system whose steps additionally meet a condition on the state before
the step and on its event. -/
def Guarded (step : σ → ε → σ → Prop) (ok : σ → ε → Prop) (s : σ) (e : ε) (t : σ) : Prop :=
  step s e t ∧ ok s e

namespace Run

variable {step : σ → ε → σ → Prop} {s t u : σ} {es fs : List ε} {e : ε}

/-- One step is a run. -/
theorem single (h : step s e t) : Run step s [e] t := by
  have hnil : Run step s [] s := Run.nil
  exact hnil.snoc h

/-- Runs compose. -/
theorem append (hst : Run step s es t) (htu : Run step t fs u) :
    Run step s (es ++ fs) u := by
  induction htu with
  | nil => simpa using hst
  | snoc _ hstep ih =>
      rw [← List.append_assoc]
      exact Run.snoc ih hstep

/-- The invariant rule: what holds at the start and is preserved by every step
holds at the end of every run. -/
theorem invariant {Inv : σ → Prop} (hrun : Run step s es t) (hinit : Inv s)
    (hstep : ∀ a e b, Inv a → step a e b → Inv b) : Inv t := by
  induction hrun with
  | nil => exact hinit
  | snoc _ hlast ih => exact hstep _ _ _ ih hlast

/-- The relational rule: a preorder that every step respects, from states that
satisfy an invariant, relates the start of a run to its end. -/
theorem related {Inv : σ → Prop} {R : σ → σ → Prop} (hrun : Run step s es t) (hinit : Inv s)
    (hinv : ∀ a e b, Inv a → step a e b → Inv b)
    (hrefl : ∀ a, R a a) (htrans : ∀ a b c, R a b → R b c → R a c)
    (hstep : ∀ a e b, Inv a → step a e b → R a b) : R s t := by
  induction hrun with
  | nil => exact hrefl s
  | snoc hpre hlast ih =>
      exact htrans _ _ _ ih (hstep _ _ _ (hpre.invariant hinit hinv) hlast)

/-- The history rule: an entry of a log that starts without it, and that only a step
into a state with a certain property adds, witnesses an earlier such state. -/
theorem earlier {α : Type*} {Inv : σ → Prop} {L Q : σ → α → Prop} {x : α}
    (hrun : Run step s es t) (hinit : Inv s) (hinv : ∀ a e b, Inv a → step a e b → Inv b)
    (hnone : ¬ L s x)
    (hstep : ∀ a e b, Inv a → step a e b → L b x → L a x ∨ Q b x) (hx : L t x) :
    ∃ fs u gs, Run step s fs u ∧ Run step u gs t ∧ Q u x := by
  induction hrun with
  | nil => exact absurd hx hnone
  | snoc hpre hlast ih =>
      rcases hstep _ _ _ (hpre.invariant hinit hinv) hlast hx with hold | hnew
      · obtain ⟨fs, u, gs, hfs, hgs, hu⟩ := ih hold
        exact ⟨fs, u, _, hfs, hgs.snoc hlast, hu⟩
      · exact ⟨_, _, [], hpre.snoc hlast, Run.nil, hnew⟩

/-- Runs are monotone in the step relation. -/
theorem mono {step' : σ → ε → σ → Prop} (hrun : Run step s es t)
    (h : ∀ a e b, step a e b → step' a e b) : Run step' s es t := by
  induction hrun with
  | nil => exact Run.nil
  | snoc _ hlast ih => exact Run.snoc ih (h _ _ _ hlast)

/-- A guarded run is a run of the underlying system. -/
theorem of_guarded {ok : σ → ε → Prop} (hrun : Run (Guarded step ok) s es t) :
    Run step s es t :=
  hrun.mono fun _ _ _ h => h.1

/-- Executing an event list of a deterministic system gives a run. -/
theorem of_eval {f : σ → ε → Option σ} :
    ∀ {es : List ε} {s t : σ}, es.foldlM f s = some t →
      Run (fun a e b => f a e = some b) s es t := by
  intro es
  induction es with
  | nil =>
      intro s t h
      have hst : s = t := by simpa using h
      subst hst
      exact Run.nil
  | cons e es ih =>
      intro s t h
      rw [List.foldlM_cons] at h
      cases hstep : f s e with
      | none => simp [hstep] at h
      | some a =>
          rw [hstep] at h
          have hfirst : Run (fun a e b => f a e = some b) s [e] a := Run.single hstep
          exact hfirst.append (ih h)

/-- Executing an event list and checking a guard at each step gives a guarded run. -/
theorem of_guarded_eval {f : σ → ε → Option σ} {ok : σ → ε → Prop} [∀ a e, Decidable (ok a e)]
    (h : es.foldlM (fun a e => if ok a e then f a e else none) s = some t) :
    Run (Guarded (fun a e b => f a e = some b) ok) s es t := by
  refine (of_eval h).mono fun a e b hstep => ?_
  split at hstep <;> rename_i hok
  · exact ⟨hstep, hok⟩
  · cases hstep

end Run

/-- A run splits at every point of its event list. -/
theorem run_append_iff {step : σ → ε → σ → Prop} {s u : σ} {es fs : List ε} :
    Run step s (es ++ fs) u ↔ ∃ t, Run step s es t ∧ Run step t fs u := by
  constructor
  · intro h
    induction fs using List.reverseRecOn generalizing u with
    | nil => exact ⟨u, by simpa using h, Run.nil⟩
    | append_singleton fs e ih =>
        rw [← List.append_assoc] at h
        generalize hes : (es ++ fs) ++ [e] = all at h
        cases h with
        | nil => simp at hes
        | snoc hpre hlast =>
            obtain ⟨hinit, he⟩ := List.append_inj' hes rfl
            obtain rfl : e = _ := List.singleton_inj.mp he
            rw [← hinit] at hpre
            obtain ⟨t, hst, htu⟩ := ih hpre
            exact ⟨t, hst, Run.snoc htu hlast⟩
  · rintro ⟨t, hst, htu⟩
    exact hst.append htu

/-- A run without events stays where it is. -/
theorem run_nil_iff {step : σ → ε → σ → Prop} {s u : σ} : Run step s [] u ↔ s = u := by
  constructor
  · intro h
    generalize hes : ([] : List ε) = es at h
    cases h with
    | nil => rfl
    | snoc _ _ => simp at hes
  · rintro rfl
    exact Run.nil

/-- A run begins with its first event. -/
theorem run_cons_iff {step : σ → ε → σ → Prop} {s u : σ} {e : ε} {es : List ε} :
    Run step s (e :: es) u ↔ ∃ t, step s e t ∧ Run step t es u := by
  rw [← List.singleton_append, run_append_iff]
  constructor
  · rintro ⟨t, hfirst, hrest⟩
    rw [← List.nil_append [e]] at hfirst
    generalize hes : ([] : List ε) ++ [e] = first at hfirst
    cases hfirst with
    | nil => simp at hes
    | snoc hpre hlast =>
        obtain ⟨hnil, he⟩ := List.append_inj' hes rfl
        obtain rfl : e = _ := List.singleton_inj.mp he
        rw [← hnil, run_nil_iff] at hpre
        exact ⟨t, hpre ▸ hlast, hrest⟩
  · rintro ⟨t, hfirst, hrest⟩
    exact ⟨t, Run.single hfirst, hrest⟩

end Library
end DarkXray
