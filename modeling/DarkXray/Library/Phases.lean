import DarkXray.Library.Threads

/-!
# Threads that pass through phases

A thread goes through phases.  They are not part of the store or of its script, and only
its own actions take it from one to the next; what may come next depends on the phase, so
that an observer sees it from the name of the next action.  The store may owe something:
as long as it does, some thread is in a phase in which it will be settled.

Main results:

- Theorems {lit}`Script.Passes.bind` and {lit}`Script.Passes.handle`: the rules of the
  constructs of a script.
- Theorem {lit}`Script.Steady.passes`: a script with steady actions stays in its phase.
- Theorem {lit}`Pool.Phased.next`: what is owed stays covered, whatever happens.
-/

namespace DarkXray
namespace Library

/-- Phases {lit}`φ` of the threads that carry out the calls {lit}`κ`, the debts
{lit}`δ` that the store may owe, and the phases that cover them. -/
structure Phases (κ ω ν σ φ δ : Type) where
  inv : σ → Prop
  /-- What is true from a phase on. -/
  claim : φ → σ → Prop
  /-- The actions that a thread performs in a phase. -/
  may : φ → ν → Prop
  ok : κ → ν → ω → σ → Prop
  step : κ → φ → φ → σ → σ → Prop
  debt : δ → σ → Prop
  covers : κ → φ → δ → Prop
  claim_later : ∀ k g g' h s t, step k g g' s t → claim h s → claim h t
  settled : ∀ k g g' s t a, step k g g' s t → debt a t →
    covers k g' a ∨ debt a s ∧ ¬covers k g a

namespace Script

variable {κ ω ν σ φ δ ε β α : Type} {d : Phases κ ω ν σ φ δ} {k : κ} {g : φ}

/-- The name of the next action. -/
def name? : Script ω ν σ ε β → Option ν
  | done _ => none
  | act name _ _ => some name

/-- In a phase a script performs what it may, and it returns in a phase in {lit}`q` or
raises in one in {lit}`r`. -/
def Passes (d : Phases κ ω ν σ φ δ) (k : κ) (q : φ → β → Prop) (r : φ → ε → Prop) :
    Script ω ν σ ε β → φ → Prop
  | done (.ok b), g => q g b
  | done (.error e), g => r g e
  | act name action next, g => d.may g name ∧
      ∀ o s, d.inv s → d.claim g s → d.ok k name o s →
        (action o).wp
          (fun x t => ∃ g', d.inv t ∧ d.claim g' t ∧ d.step k g g' s t ∧
            (next (.ok x)).Passes d k q r g')
          (fun e t => ∃ g', d.inv t ∧ d.claim g' t ∧ d.step k g g' s t ∧
            (next (.error e)).Passes d k q r g') s

section Rules

variable {p : Script ω ν σ ε β} {q : φ → β → Prop} {r : φ → ε → Prop}

/-- The rule of outcomes. -/
theorem Passes.attempt {f : Except ε β → Script ω ν σ ε α} {q' : φ → α → Prop}
    {r' : φ → ε → Prop} (h : p.Passes d k q r g)
    (hok : ∀ g b, q g b → (f (.ok b)).Passes d k q' r' g)
    (herror : ∀ g e, r g e → (f (.error e)).Passes d k q' r' g) :
    (p.attempt f).Passes d k q' r' g := by
  induction p generalizing g with
  | done result =>
      cases result with
      | ok b => exact hok g b h
      | error e => exact herror g e h
  | act name action next ih =>
      refine ⟨h.1, fun o s hs hg ho => ?_⟩
      apply Tx.wp_mono (h.2 o s hs hg ho)
      · exact fun x t ⟨g', ht, hg', hstep, hrest⟩ => ⟨g', ht, hg', hstep, ih _ hrest⟩
      · exact fun e t ⟨g', ht, hg', hstep, hrest⟩ => ⟨g', ht, hg', hstep, ih _ hrest⟩

/-- The rule of consequence. -/
theorem Passes.mono {q' : φ → β → Prop} {r' : φ → ε → Prop} (h : p.Passes d k q r g)
    (hq : ∀ g b, q g b → q' g b) (hr : ∀ g e, r g e → r' g e) : p.Passes d k q' r' g := by
  induction p generalizing g with
  | done result =>
      cases result with
      | ok b => exact hq g b h
      | error e => exact hr g e h
  | act name action next ih =>
      refine ⟨h.1, fun o s hs hg ho => ?_⟩
      apply Tx.wp_mono (h.2 o s hs hg ho)
      · exact fun x t ⟨g', ht, hg', hstep, hrest⟩ => ⟨g', ht, hg', hstep, ih _ hrest⟩
      · exact fun e t ⟨g', ht, hg', hstep, hrest⟩ => ⟨g', ht, hg', hstep, ih _ hrest⟩

/-- The rule of sequence: an exception skips the rest. -/
theorem Passes.bind {f : β → Script ω ν σ ε α} {q' : φ → α → Prop} (h : p.Passes d k q r g)
    (hf : ∀ g b, q g b → (f b).Passes d k q' r g) : (p >>= f).Passes d k q' r g :=
  h.attempt hf fun _ _ he => he

/-- The rule of handlers. -/
theorem Passes.handle {f : ε → Script ω ν σ ε β} {r' : φ → ε → Prop} (h : p.Passes d k q r g)
    (hf : ∀ g e, r g e → (f e).Passes d k q r' g) : (p.handle f).Passes d k q r' g :=
  h.attempt (fun _ _ hb => hb) hf

/-- The rule of actions. -/
theorem Passes.perform {name : ν} {action : ω → Tx σ ε β} (hmay : d.may g name)
    (h : ∀ o s, d.inv s → d.claim g s → d.ok k name o s →
      (action o).wp (fun x t => ∃ g', d.inv t ∧ d.claim g' t ∧ d.step k g g' s t ∧ q g' x)
        (fun e t => ∃ g', d.inv t ∧ d.claim g' t ∧ d.step k g g' s t ∧ r g' e) s) :
    (Script.perform name action).Passes d k q r g :=
  ⟨hmay, h⟩

theorem Passes.ofExcept {x : Except ε β} (hok : ∀ b, x = .ok b → q g b)
    (herror : ∀ e, x = .error e → r g e) :
    (Script.ofExcept x : Script ω ν σ ε β).Passes d k q r g := by
  cases x with
  | ok b => exact hok b rfl
  | error e => exact herror e rfl

/-- A script with steady actions stays in a phase in which they may be performed. -/
theorem Steady.passes {D : Discipline ω ν σ} (h : p.Steady D) (hinv : ∀ s, d.inv s → D.inv s)
    (hok : ∀ name o s, D.ok name o s) (hmay : ∀ name, d.may g name)
    (hstep : ∀ s t, d.inv s → d.claim g s → D.inv t → D.step s t →
      d.inv t ∧ d.claim g t ∧ d.step k g g s t) :
    p.Passes d k (fun g' _ => g' = g) (fun g' _ => g' = g) g := by
  induction p with
  | done result =>
      cases result with
      | ok b => rfl
      | error e => rfl
  | act name action next ih =>
      refine ⟨hmay name, fun o s hs hg _ => ?_⟩
      have hone : ∀ x t, D.inv t ∧ D.step s t → ∃ g', d.inv t ∧ d.claim g' t ∧
          d.step k g g' s t ∧
          (next x).Passes d k (fun g' _ => g' = g) (fun g' _ => g' = g) g' := by
        rintro x t ⟨ht, hst⟩
        obtain ⟨hinv', hclaim, hstep'⟩ := hstep s t hs hg ht hst
        exact ⟨g, hinv', hclaim, hstep', ih x (h.2 x)⟩
      apply Tx.wp_mono (h.1 o s (hinv s hs) (hok name o s))
      · exact fun x t => hone (.ok x) t
      · exact fun e t => hone (.error e) t

end Rules

end Script

/-! ## Pools -/

namespace Pool

variable {κ ω ν η σ φ δ ε β : Type}

/-- The threads are in the phases {lit}`gs`, every debt is covered, and each thread that
has answered has come to a phase in which it may. -/
structure Phased (d : Phases κ ω ν σ φ δ) (q : κ → φ → β → Prop) (r : κ → φ → ε → Prop)
    (gs : List φ) (w : Pool κ ω ν σ ε β) : Prop where
  inv : d.inv w.store
  length : gs.length = w.threads.length
  claims : ∀ g ∈ gs, d.claim g w.store
  passes : ∀ (i : ℕ) (t : Thread κ ω ν σ ε β) (g : φ), w.threads[i]? = some t →
    gs[i]? = some g → t.rest.Passes d t.call (q t.call) (r t.call) g
  covered : ∀ a, d.debt a w.store → ∃ (i : ℕ) (t : Thread κ ω ν σ ε β) (g : φ),
    w.threads[i]? = some t ∧ gs[i]? = some g ∧ d.covers t.call g a
  answers : ∀ a ∈ w.answers, ∃ g, d.claim g w.store ∧
    (Script.done a.2 : Script ω ν σ ε β).Passes d a.1 (q a.1) (r a.1) g

/-- Every action meets the condition of its call, and threads are only lost when nothing
is owed. -/
def Complies (d : Phases κ ω ν σ φ δ) (w : Pool κ ω ν σ ε β) : PoolEvent κ ω η → Prop
  | .run i o => ∀ k name α (action : ω → Tx σ ε α) next,
      w.threads[i]? = some ⟨k, .act name action next⟩ → d.ok k name o w.store
  | .crash => ∀ a, ¬d.debt a w.store
  | .enter _ | .answer _ | .outside _ => True

section Runs

variable {d : Phases κ ω ν σ φ δ} {q : κ → φ → β → Prop} {r : κ → φ → ε → Prop}
  {gs : List φ} {script : κ → Script ω ν σ ε β} {outside : η → σ → σ} {w w' : Pool κ ω ν σ ε β}

theorem phased_start {s : σ} (hs : d.inv s) (hdebt : ∀ a, ¬d.debt a s) :
    (start s : Pool κ ω ν σ ε β).Phased d q r [] where
  inv := hs
  length := rfl
  claims _ hg := (List.not_mem_nil hg).elim
  passes _ _ _ ht := by simp [start] at ht
  covered a ha := (hdebt a ha).elim
  answers _ ha := (List.not_mem_nil ha).elim

/-- A change of the store that owes nothing new. -/
theorem Phased.change {t : σ} (h : w.Phased d q r gs) (ht : d.inv t)
    (hclaim : ∀ g, d.claim g w.store → d.claim g t) (hdebt : ∀ a, d.debt a t → d.debt a w.store) :
    Phased d q r gs { w with store := t } where
  inv := ht
  length := h.length
  claims g hg := hclaim g (h.claims g hg)
  passes := h.passes
  covered a ha := h.covered a (hdebt a ha)
  answers a ha := by
    obtain ⟨g, hg, hends⟩ := h.answers a ha
    exact ⟨g, hclaim g hg, hends⟩

/-- A call begins in its first phase. -/
theorem Phased.enter {k : κ} {g : φ} (h : w.Phased d q r gs) (hclaim : d.claim g w.store)
    (hscript : (script k).Passes d k (q k) (r k) g) :
    Phased d q r (gs ++ [g]) { w with threads := w.threads ++ [⟨k, script k⟩] } where
  inv := h.inv
  length := by simp [h.length]
  claims g' hg' := by
    rcases List.mem_append.mp hg' with hold | hnew
    · exact h.claims g' hold
    · rw [List.mem_singleton.mp hnew]
      exact hclaim
  passes i t g' ht hg' := by
    have hlength := h.length
    rcases getElem?_append_single ht with ht | ⟨hi, rfl⟩
    · have hi := (List.getElem?_eq_some_iff.mp ht).1
      rcases getElem?_append_single hg' with hg' | ⟨hi', -⟩
      · exact h.passes i t g' ht hg'
      · omega
    · rcases getElem?_append_single hg' with hg' | ⟨-, rfl⟩
      · have hi' := (List.getElem?_eq_some_iff.mp hg').1
        omega
      · exact hscript
  covered a ha := by
    obtain ⟨i, t, g', ht, hg', hcovers⟩ := h.covered a ha
    refine ⟨i, t, g', ?_, ?_, hcovers⟩
    · rwa [List.getElem?_append_left (List.getElem?_eq_some_iff.mp ht).1]
    · rwa [List.getElem?_append_left (List.getElem?_eq_some_iff.mp hg').1]
  answers := h.answers

/-- An action takes one thread to another phase; the others cover what they covered. -/
theorem Phased.act {i : ℕ} {t : Thread κ ω ν σ ε β} {g g' : φ} {u : σ}
    {rest : Script ω ν σ ε β} (h : w.Phased d q r gs) (ht : w.threads[i]? = some t)
    (hg : gs[i]? = some g) (hu : d.inv u) (hclaim : d.claim g' u)
    (hstep : d.step t.call g g' w.store u)
    (hrest : rest.Passes d t.call (q t.call) (r t.call) g') :
    Phased d q r (gs.set i g') { w with
      store := u
      threads := w.threads.set i ⟨t.call, rest⟩ } := by
  have hi : i < w.threads.length := (List.getElem?_eq_some_iff.mp ht).1
  have hi' : i < gs.length := (List.getElem?_eq_some_iff.mp hg).1
  constructor
  · exact hu
  · simp [h.length]
  · intro g'' hg''
    rcases List.mem_or_eq_of_mem_set hg'' with hold | rfl
    · exact d.claim_later _ _ _ _ _ _ hstep (h.claims g'' hold)
    · exact hclaim
  · intro j t' g'' ht' hg''
    by_cases hij : i = j
    · subst hij
      rw [List.getElem?_set_self hi] at ht'
      rw [List.getElem?_set_self hi'] at hg''
      cases ht'
      cases hg''
      exact hrest
    · rw [List.getElem?_set_ne hij] at ht' hg''
      exact h.passes j t' g'' ht' hg''
  · intro a ha
    rcases d.settled _ _ _ _ _ _ hstep ha with hnew | ⟨hold, hnot⟩
    · exact ⟨i, _, g', List.getElem?_set_self hi, List.getElem?_set_self hi', hnew⟩
    · obtain ⟨j, t', g'', ht', hg'', hcovers⟩ := h.covered a hold
      -- The thread that covers the debt is another one.
      have hij : i ≠ j := by
        rintro rfl
        rw [ht] at ht'
        rw [hg] at hg''
        cases ht'
        cases hg''
        exact hnot hcovers
      refine ⟨j, t', g'', ?_, ?_, hcovers⟩
      · rwa [List.getElem?_set_ne hij]
      · rwa [List.getElem?_set_ne hij]
  · intro a ha
    obtain ⟨g'', hg'', hends⟩ := h.answers a ha
    exact ⟨g'', d.claim_later _ _ _ _ _ _ hstep hg'', hends⟩

/-- A thread that has come to its end covers nothing, and answers. -/
theorem Phased.answer {i : ℕ} {k : κ} {result : Except ε β} (h : w.Phased d q r gs)
    (hq : ∀ k g b a, q k g b → ¬d.covers k g a) (hr : ∀ k g e a, r k g e → ¬d.covers k g a)
    (ht : w.threads[i]? = some ⟨k, .done result⟩) :
    Phased d q r (gs.eraseIdx i) { w with
      threads := w.threads.eraseIdx i
      answers := w.answers ++ [(k, result)] } := by
  have hi : i < w.threads.length := (List.getElem?_eq_some_iff.mp ht).1
  have hi' : i < gs.length := by
    rw [h.length]
    exact hi
  obtain ⟨g, hg⟩ : ∃ g, gs[i]? = some g := ⟨_, List.getElem?_eq_getElem hi'⟩
  have hends := h.passes i _ _ ht hg
  have hfree : ∀ a, ¬d.covers k g a := by
    intro a
    cases result with
    | ok b => exact hq k _ b a hends
    | error e => exact hr k _ e a hends
  constructor
  · exact h.inv
  · rw [List.length_eraseIdx_of_lt hi, List.length_eraseIdx_of_lt hi', h.length]
  · exact fun g' hg' => h.claims g' (List.mem_of_mem_eraseIdx hg')
  · intro j t g' htj hgj
    rw [List.getElem?_eraseIdx] at htj hgj
    split at htj
    · rename_i hlt
      rw [if_pos hlt] at hgj
      exact h.passes j t g' htj hgj
    · rename_i hge
      rw [if_neg hge] at hgj
      exact h.passes (j + 1) t g' htj hgj
  · intro a ha
    obtain ⟨j, t, g', htj, hgj, hcovers⟩ := h.covered a ha
    have hij : j ≠ i := by
      rintro rfl
      rw [ht] at htj
      rw [hg] at hgj
      cases htj
      cases hgj
      exact hfree a hcovers
    refine ⟨if i < j then j - 1 else j, t, g', ?_, ?_, hcovers⟩
    · rwa [getElem?_eraseIdx_shift (Ne.symm hij)]
    · rwa [getElem?_eraseIdx_shift (Ne.symm hij)]
  · intro a ha
    rcases List.mem_append.mp ha with hold | hnew
    · exact h.answers a hold
    · rw [List.mem_singleton.mp hnew]
      exact ⟨_, h.claims _ (List.mem_of_getElem? hg), hends⟩

/-- What one event does to threads in phases: what is owed stays covered. -/
theorem Phased.next {begin : κ → φ} {e : PoolEvent κ ω η} (h : w.Phased d q r gs)
    (hq : ∀ k g b a, q k g b → ¬d.covers k g a) (hr : ∀ k g e a, r k g e → ¬d.covers k g a)
    (hscript : ∀ k, e = .enter k → d.claim (begin k) w.store ∧
      (script k).Passes d k (q k) (r k) (begin k))
    (houtside : ∀ e s, d.inv s → d.inv (outside e s) ∧
      (∀ g, d.claim g s → d.claim g (outside e s)) ∧ ∀ a, d.debt a (outside e s) → d.debt a s)
    (hstep : Step script outside w e w') (hok : w.Complies d e) :
    ∃ gs', w'.Phased d q r gs' := by
  cases e with
  | enter k =>
      cases hstep
      obtain ⟨hclaim, hpasses⟩ := hscript k rfl
      exact ⟨_, h.enter hclaim hpasses⟩
  | run i o =>
      simp only [Step, Pool.next] at hstep
      split at hstep
      · rename_i k α name action rest hthread
        cases hstep
        have hi := (List.getElem?_eq_some_iff.mp hthread).1
        obtain ⟨g, hg⟩ : ∃ g, gs[i]? = some g :=
          ⟨_, List.getElem?_eq_getElem (by rw [h.length]; exact hi)⟩
        have hpasses := (h.passes i _ _ hthread hg).2 o w.store h.inv
          (h.claims _ (List.mem_of_getElem? hg)) (hok k name α action rest hthread)
        obtain ⟨g', hu, hclaim, hone, hrest⟩ : ∃ g', d.inv (action o w.store).2 ∧
            d.claim g' (action o w.store).2 ∧
            d.step k g g' w.store (action o w.store).2 ∧
            (rest (action o w.store).1).Passes d k (q k) (r k) g' := by
          revert hpasses
          unfold Tx.wp
          rcases action o w.store with ⟨_ | x, u⟩
          · exact id
          · exact id
        exact ⟨_, h.act hthread hg hu hclaim hone hrest⟩
      · cases hstep
  | answer i =>
      simp only [Step, Pool.next] at hstep
      split at hstep
      · rename_i k result hthread
        cases hstep
        exact ⟨_, h.answer hq hr hthread⟩
      · cases hstep
  | crash =>
      cases hstep
      refine ⟨[], h.inv, rfl, fun _ hg => (List.not_mem_nil hg).elim, ?_, ?_, h.answers⟩
      · exact fun _ _ _ ht => by simp at ht
      · exact fun a ha => (hok a ha).elim
  | outside e =>
      cases hstep
      obtain ⟨hinv, hclaim, hdebt⟩ := houtside e _ h.inv
      exact ⟨gs, h.change hinv (fun g => hclaim g) hdebt⟩

/-- A thread that covers a debt has not come to its end, and what it does next is what may
be done in its phase. -/
theorem Phased.standing (h : w.Phased d q r gs)
    (hq : ∀ k g b a, q k g b → ¬d.covers k g a) (hr : ∀ k g e a, r k g e → ¬d.covers k g a)
    {a : δ} (ha : d.debt a w.store) : ∃ t ∈ w.threads, ∃ g name, d.covers t.call g a ∧
      t.rest.name? = some name ∧ d.may g name := by
  obtain ⟨i, t, g, ht, hg, hcovers⟩ := h.covered a ha
  have hpasses := h.passes i t g ht hg
  refine ⟨t, List.mem_of_getElem? ht, g, ?_⟩
  cases hrest : t.rest with
  | done result =>
      rw [hrest] at hpasses
      cases result with
      | ok b => exact (hq _ _ _ a hpasses hcovers).elim
      | error e => exact (hr _ _ _ a hpasses hcovers).elim
  | act name action next =>
      rw [hrest] at hpasses
      exact ⟨name, hcovers, rfl, hpasses.1⟩

end Runs

end Pool

end Library
end DarkXray
