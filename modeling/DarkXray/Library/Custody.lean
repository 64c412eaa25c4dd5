import DarkXray.Library.Threads

/-!
# Threads that hold what they have taken

A thread may take something, a debt, that nobody else may touch until the thread has
settled it.  What a thread holds is not part of the store or of its script: it is a
ghost that the proof carries along.  What a thread may rely on depends on what it holds.

Main results:

- Theorems {lit}`Script.Keeps.bind` and {lit}`Script.Keeps.handle`: the rules of the
  constructs of a script.
- Theorem {lit}`Pool.Held.next`: what one event does to a pool whose threads hold their
  debts.
- Theorem {lit}`Pool.Held.run`: every debt stays in the hands of exactly one thread.
- Theorem {lit}`Pool.Held.isolated`: a thread that ends without having passed a point of
  no return has done nothing but quiet steps.
-/

namespace DarkXray
namespace Library

/-- Holdings {lit}`γ`, the debt {lit}`ρ` that each of them contains, and the rules for
the steps of the calls {lit}`κ`: a step is described by the holdings before and after. -/
structure Custody (κ ω ν σ γ ρ : Type) where
  inv : σ → Prop
  /-- What is true because of what a thread holds. -/
  claim : γ → σ → Prop
  holds : γ → Option ρ
  /-- Whether a call may have such holdings. -/
  own : κ → γ → Prop
  debt : ρ → σ → Prop
  ok : κ → ν → ω → σ → Prop
  step : κ → γ → γ → σ → σ → Prop
  /-- What all steps do. -/
  past : σ → σ → Prop
  /-- What the steps of the others do. -/
  rely : γ → σ → σ → Prop
  rely_refl : ∀ g s, rely g s s
  rely_trans : ∀ g s t u, rely g s t → rely g t u → rely g s u
  past_refl : ∀ s, past s s
  past_trans : ∀ s t u, past s t → past t u → past s u
  past_of_rely : ∀ g s t, rely g s t → past s t
  past_of_step : ∀ k g g' s t, step k g g' s t → past s t
  claim_later : ∀ g s t, rely g s t → claim g s → claim g t
  debt_of_claim : ∀ g d s, holds g = some d → claim g s → debt d s
  others : ∀ k g g' h s t, step k g g' s t → claim h s →
    (∀ d, holds g = some d → holds h ≠ some d) → rely h s t
  own_step : ∀ k g g' s t, step k g g' s t → own k g → own k g'
  taken : ∀ k g g' s t d, step k g g' s t → holds g' = some d → holds g = some d ∨ ¬debt d s
  settled : ∀ k g g' s t d, step k g g' s t → debt d t →
    holds g' = some d ∨ debt d s ∧ holds g ≠ some d

namespace Script

variable {κ ω ν σ γ ρ ε β δ : Type} {d : Custody κ ω ν σ γ ρ} {k : κ} {g : γ} {s t : σ}

/-- From a store on, a script with the holdings {lit}`g` keeps the rules, and returns
into {lit}`q` or raises into {lit}`r`. -/
def Keeps (d : Custody κ ω ν σ γ ρ) (k : κ) (q : γ → β → σ → Prop) (r : γ → ε → σ → Prop) :
    Script ω ν σ ε β → γ → σ → Prop
  | done (.ok b), g, s => ∀ t, d.inv t → d.claim g t → d.rely g s t → q g b t
  | done (.error e), g, s => ∀ t, d.inv t → d.claim g t → d.rely g s t → r g e t
  | act name action next, g, s => ∀ t, d.inv t → d.claim g t → d.rely g s t →
      ∀ o, d.ok k name o t →
        (action o).wp
          (fun x u => ∃ g', d.inv u ∧ d.claim g' u ∧ d.step k g g' t u ∧
            (next (.ok x)).Keeps d k q r g' u)
          (fun e u => ∃ g', d.inv u ∧ d.claim g' u ∧ d.step k g g' t u ∧
            (next (.error e)).Keeps d k q r g' u) t

section Rules

variable {p : Script ω ν σ ε β} {q : γ → β → σ → Prop} {r : γ → ε → σ → Prop}

theorem Keeps.later (h : p.Keeps d k q r g s) (hrel : d.rely g s t) : p.Keeps d k q r g t := by
  cases p with
  | done result =>
      cases result with
      | ok b => exact fun u hu hg hlater => h u hu hg (d.rely_trans _ _ _ _ hrel hlater)
      | error e => exact fun u hu hg hlater => h u hu hg (d.rely_trans _ _ _ _ hrel hlater)
  | act name action next =>
      exact fun u hu hg hlater => h u hu hg (d.rely_trans _ _ _ _ hrel hlater)

/-- The rule of consequence. -/
theorem Keeps.mono {q' : γ → β → σ → Prop} {r' : γ → ε → σ → Prop} (h : p.Keeps d k q r g s)
    (hq : ∀ g b t, q g b t → q' g b t) (hr : ∀ g e t, r g e t → r' g e t) :
    p.Keeps d k q' r' g s := by
  induction p generalizing g s with
  | done result =>
      cases result with
      | ok b => exact fun t ht hg hrel => hq g b t (h t ht hg hrel)
      | error e => exact fun t ht hg hrel => hr g e t (h t ht hg hrel)
  | act name action next ih =>
      intro t ht hg hrel o ho
      apply Tx.wp_mono (h t ht hg hrel o ho)
      · exact fun x u ⟨g', hu, hg', hstep, hrest⟩ => ⟨g', hu, hg', hstep, ih _ hrest⟩
      · exact fun e u ⟨g', hu, hg', hstep, hrest⟩ => ⟨g', hu, hg', hstep, ih _ hrest⟩

/-- The rule of outcomes. -/
theorem Keeps.attempt {f : Except ε β → Script ω ν σ ε δ} {q' : γ → δ → σ → Prop}
    {r' : γ → ε → σ → Prop} (h : p.Keeps d k q r g s) (hs : d.inv s) (hg : d.claim g s)
    (hok : ∀ g b t, d.inv t → d.claim g t → d.past s t →
      (∀ u, d.inv u → d.claim g u → d.rely g t u → q g b u) →
      (f (.ok b)).Keeps d k q' r' g t)
    (herror : ∀ g e t, d.inv t → d.claim g t → d.past s t →
      (∀ u, d.inv u → d.claim g u → d.rely g t u → r g e u) →
      (f (.error e)).Keeps d k q' r' g t) :
    (p.attempt f).Keeps d k q' r' g s := by
  induction p generalizing g s with
  | done result =>
      cases result with
      | ok b => exact hok g b s hs hg (d.past_refl s) h
      | error e => exact herror g e s hs hg (d.past_refl s) h
  | act name action next ih =>
      intro t ht hgt hrel o ho
      have hnext : ∀ x g' u, d.inv u → d.claim g' u → d.step k g g' t u →
          (next x).Keeps d k q r g' u → ((next x).attempt f).Keeps d k q' r' g' u := by
        intro x g' u hu hg' hstep hrest
        have hpast : d.past s u :=
          d.past_trans _ _ _ (d.past_of_rely _ _ _ hrel) (d.past_of_step _ _ _ _ _ hstep)
        apply ih x hrest hu hg'
        · exact fun h b v hv hh hlater => hok h b v hv hh (d.past_trans _ _ _ hpast hlater)
        · exact fun h e v hv hh hlater => herror h e v hv hh (d.past_trans _ _ _ hpast hlater)
      apply Tx.wp_mono (h t ht hgt hrel o ho)
      · exact fun x u ⟨g', hu, hg', hstep, hrest⟩ =>
          ⟨g', hu, hg', hstep, hnext _ g' u hu hg' hstep hrest⟩
      · exact fun e u ⟨g', hu, hg', hstep, hrest⟩ =>
          ⟨g', hu, hg', hstep, hnext _ g' u hu hg' hstep hrest⟩

/-- The rule of sequence: an exception skips the rest. -/
theorem Keeps.bind {f : β → Script ω ν σ ε δ} {q' : γ → δ → σ → Prop}
    (h : p.Keeps d k q r g s) (hs : d.inv s) (hg : d.claim g s)
    (hf : ∀ g b t, d.inv t → d.claim g t → d.past s t → q g b t → (f b).Keeps d k q' r g t) :
    (p >>= f).Keeps d k q' r g s :=
  h.attempt hs hg
    (fun g b t ht hgt hpast hb => hf g b t ht hgt hpast (hb t ht hgt (d.rely_refl g t)))
    fun _ _ _ _ _ _ he => he

/-- The rule of handlers. -/
theorem Keeps.handle {f : ε → Script ω ν σ ε β} {r' : γ → ε → σ → Prop}
    (h : p.Keeps d k q r g s) (hs : d.inv s) (hg : d.claim g s)
    (hf : ∀ g e t, d.inv t → d.claim g t → d.past s t → r g e t → (f e).Keeps d k q r' g t) :
    (p.handle f).Keeps d k q r' g s :=
  h.attempt hs hg (fun _ _ _ _ _ _ hb => hb)
    fun g e t ht hgt hpast he => hf g e t ht hgt hpast (he t ht hgt (d.rely_refl g t))

/-- The rule of actions. -/
theorem Keeps.perform {name : ν} {action : ω → Tx σ ε β}
    (h : ∀ t, d.inv t → d.claim g t → d.rely g s t → ∀ o, d.ok k name o t →
      (action o).wp
        (fun b u => ∃ g', d.inv u ∧ d.claim g' u ∧ d.step k g g' t u ∧
          ∀ v, d.inv v → d.claim g' v → d.rely g' u v → q g' b v)
        (fun e u => ∃ g', d.inv u ∧ d.claim g' u ∧ d.step k g g' t u ∧
          ∀ v, d.inv v → d.claim g' v → d.rely g' u v → r g' e v) t) :
    (Script.perform name action).Keeps d k q r g s :=
  h

theorem Keeps.pure {b : β} (h : ∀ t, d.inv t → d.claim g t → d.rely g s t → q g b t) :
    (pure b : Script ω ν σ ε β).Keeps d k q r g s :=
  h

theorem Keeps.raise {e : ε} (h : ∀ t, d.inv t → d.claim g t → d.rely g s t → r g e t) :
    (Script.raise e : Script ω ν σ ε β).Keeps d k q r g s :=
  h

theorem Keeps.ofExcept {x : Except ε β}
    (hok : ∀ b, x = .ok b → ∀ t, d.inv t → d.claim g t → d.rely g s t → q g b t)
    (herror : ∀ e, x = .error e → ∀ t, d.inv t → d.claim g t → d.rely g s t → r g e t) :
    (Script.ofExcept x : Script ω ν σ ε β).Keeps d k q r g s := by
  cases x with
  | ok b => exact hok b rfl
  | error e => exact herror e rfl

end Rules

end Script

/-! ## Pools -/

namespace Pool

variable {κ ω ν η σ γ ρ ε β : Type}

/-- No thread is lost, and every action meets the condition of its call. -/
def Permitted (ok : κ → ν → ω → σ → Prop) (w : Pool κ ω ν σ ε β) : PoolEvent κ ω η → Prop
  | .run i o => ∀ k name δ (action : ω → Tx σ ε δ) next,
      w.threads[i]? = some ⟨k, .act name action next⟩ → ok k name o w.store
  | .crash => False
  | .enter _ => True
  | .answer _ => True
  | .outside _ => True

/-- Whether an event is permitted can be computed. -/
instance decidablePermitted {ok : κ → ν → ω → σ → Prop} [∀ k name o s, Decidable (ok k name o s)]
    (w : Pool κ ω ν σ ε β) (e : PoolEvent κ ω η) : Decidable (w.Permitted ok e) :=
  match e with
  | .run i o =>
      match h : w.threads[i]? with
      | none => .isTrue fun _ _ _ _ _ hthread => by cases h.symm.trans hthread
      | some ⟨_, .done _⟩ => .isTrue fun _ _ _ _ _ hthread => by cases h.symm.trans hthread
      | some ⟨k, .act name _ _⟩ => decidable_of_iff (ok k name o w.store) <| by
          constructor
          · intro hok k' name' δ action next hthread
            cases h.symm.trans hthread
            exact hok
          · exact fun hall => hall _ _ _ _ _ h
  | .crash => .isFalse not_false
  | .enter _ => .isTrue trivial
  | .answer _ => .isTrue trivial
  | .outside _ => .isTrue trivial

/-- The changes of the store that one thread makes itself in the course of some events. -/
def ownSteps (script : κ → Script ω ν σ ε β) (outside : η → σ → σ) :
    List (PoolEvent κ ω η) → Pool κ ω ν σ ε β → ℕ → List (σ × σ)
  | [], _, _ => []
  | e :: es, w, i =>
      match w.next script outside e with
      | none => []
      | some w' =>
          match e with
          | .run j _ =>
              if j = i then (w.store, w'.store) :: ownSteps script outside es w' i
              else ownSteps script outside es w' i
          | .answer j =>
              if j = i then [] else ownSteps script outside es w' (if j < i then i - 1 else i)
          | .crash => []
          | .enter _ => ownSteps script outside es w' i
          | .outside _ => ownSteps script outside es w' i

/-- The threads keep the rules with the holdings {lit}`gs`, and every debt is in the
hands of exactly one of them. -/
structure Held (d : Custody κ ω ν σ γ ρ) (gs : List γ) (w : Pool κ ω ν σ ε β) : Prop where
  inv : d.inv w.store
  length : gs.length = w.threads.length
  claims : ∀ g ∈ gs, d.claim g w.store
  own : ∀ (i : ℕ) (t : Thread κ ω ν σ ε β) (g : γ), w.threads[i]? = some t → gs[i]? = some g →
    d.own t.call g
  keeps : ∀ (i : ℕ) (t : Thread κ ω ν σ ε β) (g : γ), w.threads[i]? = some t → gs[i]? = some g →
    t.rest.Keeps d t.call (fun g _ _ => d.holds g = none) (fun g _ _ => d.holds g = none) g w.store
  apart : ∀ (i j : ℕ) (g h : γ) (a : ρ), gs[i]? = some g → gs[j]? = some h →
    d.holds g = some a → d.holds h = some a → i = j
  covered : ∀ a, d.debt a w.store → ∃ g ∈ gs, d.holds g = some a

section Runs

variable {d : Custody κ ω ν σ γ ρ} {gs : List γ} {begin : κ → γ}
  {script : κ → Script ω ν σ ε β} {outside : η → σ → σ} {w w' : Pool κ ω ν σ ε β}

theorem held_start {s : σ} (hs : d.inv s) (hdebt : ∀ a, ¬d.debt a s) :
    (start s : Pool κ ω ν σ ε β).Held d [] where
  inv := hs
  length := rfl
  claims := fun _ hg => (List.not_mem_nil hg).elim
  own := fun _ _ _ ht => by simp [start] at ht
  keeps := fun _ _ _ ht => by simp [start] at ht
  apart := fun _ _ _ _ _ hg => by simp at hg
  covered := fun a ha => (hdebt a ha).elim

/-- A thread that has come to its end holds nothing. -/
theorem Held.released (h : w.Held d gs) {i : ℕ} {g : γ} {k : κ} {result : Except ε β}
    (ht : w.threads[i]? = some ⟨k, .done result⟩) (hg : gs[i]? = some g) :
    d.holds g = none := by
  have hkeeps := h.keeps i _ g ht hg
  have hclaim := h.claims g (List.mem_of_getElem? hg)
  cases result with
  | ok b => exact hkeeps _ h.inv hclaim (d.rely_refl _ _)
  | error e => exact hkeeps _ h.inv hclaim (d.rely_refl _ _)

/-- A call that begins holds nothing. -/
theorem Held.enter {k : κ} (h : w.Held d gs) (hbegin : d.holds (begin k) = none)
    (hown : d.own k (begin k)) (hclaim : d.claim (begin k) w.store)
    (hscript : (script k).Keeps d k (fun g _ _ => d.holds g = none) (fun g _ _ => d.holds g = none)
      (begin k) w.store) :
    Held d (gs ++ [begin k]) { w with threads := w.threads ++ [⟨k, script k⟩] } := by
  have hthreads : ∀ {i : ℕ} {t : Thread κ ω ν σ ε β} {g : γ},
      (w.threads ++ [⟨k, script k⟩])[i]? = some t → (gs ++ [begin k])[i]? = some g →
      w.threads[i]? = some t ∧ gs[i]? = some g ∨ t = ⟨k, script k⟩ ∧ g = begin k := by
    intro i t g ht hg
    have hlength := h.length
    rcases getElem?_append_single ht with ht | ⟨hi, rfl⟩
    · have hi := (List.getElem?_eq_some_iff.mp ht).1
      rcases getElem?_append_single hg with hg | ⟨hi', -⟩
      · exact .inl ⟨ht, hg⟩
      · omega
    · rcases getElem?_append_single hg with hg | ⟨-, rfl⟩
      · have hi' := (List.getElem?_eq_some_iff.mp hg).1
        omega
      · exact .inr ⟨rfl, rfl⟩
  constructor
  · exact h.inv
  · simp [h.length]
  · intro g hg
    rcases List.mem_append.mp hg with hold | hnew
    · exact h.claims g hold
    · rw [List.mem_singleton.mp hnew]
      exact hclaim
  · intro i t g ht hg
    rcases hthreads ht hg with ⟨ht, hg⟩ | ⟨rfl, rfl⟩
    · exact h.own i t g ht hg
    · exact hown
  · intro i t g ht hg
    rcases hthreads ht hg with ⟨ht, hg⟩ | ⟨rfl, rfl⟩
    · exact h.keeps i t g ht hg
    · exact hscript
  · intro i j g g' a hg hg' ha ha'
    have hold : ∀ {i : ℕ} {g : γ}, (gs ++ [begin k])[i]? = some g → d.holds g = some a →
        gs[i]? = some g := by
      intro i g hg ha
      rcases getElem?_append_single hg with hold | ⟨-, rfl⟩
      · exact hold
      · rw [hbegin] at ha
        cases ha
    exact h.apart i j g g' a (hold hg ha) (hold hg' ha') ha ha'
  · intro a ha
    obtain ⟨g, hg, hholds⟩ := h.covered a ha
    exact ⟨g, List.mem_append_left _ hg, hholds⟩

/-- The answer of a thread takes its holdings away with it. -/
theorem Held.answer {i : ℕ} {k : κ} {result : Except ε β} {answers : List (κ × Except ε β)}
    (h : w.Held d gs) (ht : w.threads[i]? = some ⟨k, .done result⟩) :
    Held d (gs.eraseIdx i) { w with
      threads := w.threads.eraseIdx i
      answers := answers } where
  inv := h.inv
  length := by
    have hi := (List.getElem?_eq_some_iff.mp ht).1
    rw [List.length_eraseIdx_of_lt hi, List.length_eraseIdx_of_lt (by rw [h.length]; exact hi),
      h.length]
  claims g hg := h.claims g (List.mem_of_mem_eraseIdx hg)
  own j t g htj hgj := by
    rw [List.getElem?_eraseIdx] at htj hgj
    split at htj
    · rename_i hlt
      rw [if_pos hlt] at hgj
      exact h.own j t g htj hgj
    · rename_i hge
      rw [if_neg hge] at hgj
      exact h.own (j + 1) t g htj hgj
  keeps j t g htj hgj := by
    rw [List.getElem?_eraseIdx] at htj hgj
    split at htj
    · rename_i hlt
      rw [if_pos hlt] at hgj
      exact h.keeps j t g htj hgj
    · rename_i hge
      rw [if_neg hge] at hgj
      exact h.keeps (j + 1) t g htj hgj
  apart j j' g g' a hg hg' ha ha' := by
    rw [List.getElem?_eraseIdx] at hg hg'
    split at hg
    · split at hg'
      · exact h.apart j j' g g' a hg hg' ha ha'
      · have heq := h.apart j (j' + 1) g g' a hg hg' ha ha'
        omega
    · split at hg'
      · have heq := h.apart (j + 1) j' g g' a hg hg' ha ha'
        omega
      · have heq := h.apart (j + 1) (j' + 1) g g' a hg hg' ha ha'
        omega
  covered a ha := by
    obtain ⟨g, hg, hholds⟩ := h.covered a ha
    obtain ⟨j, hj⟩ := List.getElem?_of_mem hg
    have hne : j ≠ i := by
      rintro rfl
      rw [h.released ht hj] at hholds
      cases hholds
    refine ⟨g, ?_, hholds⟩
    rw [List.mem_eraseIdx_iff_getElem?]
    exact ⟨j, hne, hj⟩

/-- An action of one thread. -/
theorem Held.act {i : ℕ} {t : Thread κ ω ν σ ε β} {g g' : γ} {u : σ}
    {rest : Script ω ν σ ε β} (h : w.Held d gs) (ht : w.threads[i]? = some t)
    (hg : gs[i]? = some g) (hu : d.inv u) (hclaim : d.claim g' u)
    (hstep : d.step t.call g g' w.store u)
    (hrest : rest.Keeps d t.call (fun g _ _ => d.holds g = none) (fun g _ _ => d.holds g = none)
      g' u) :
    Held d (gs.set i g') { w with
      store := u
      threads := w.threads.set i ⟨t.call, rest⟩ } := by
  have hi : i < gs.length := (List.getElem?_eq_some_iff.mp hg).1
  have hi' : i < w.threads.length := (List.getElem?_eq_some_iff.mp ht).1
  have hothers : ∀ j h', gs[j]? = some h' → j ≠ i → d.rely h' w.store u := by
    intro j h' hj hne
    apply d.others _ _ _ _ _ _ hstep (h.claims h' (List.mem_of_getElem? hj))
    exact fun a ha ha' => hne (h.apart j i h' g a hj hg ha' ha)
  have hother : ∀ {j : ℕ} {h' : γ}, (gs.set i g')[j]? = some h' → j ≠ i → gs[j]? = some h' := by
    intro j h' hj hne
    rwa [List.getElem?_set_ne (Ne.symm hne)] at hj
  have hself : ∀ {h' : γ}, (gs.set i g')[i]? = some h' → h' = g' := by
    intro h' hj
    rw [List.getElem?_set_self hi] at hj
    exact (Option.some.inj hj).symm
  have hapart : ∀ {j : ℕ} {h' : γ} {a : ρ}, gs[j]? = some h' → d.holds h' = some a →
      d.holds g' = some a → j = i := by
    intro j h' a hj ha ha'
    rcases d.taken _ _ _ _ _ _ hstep ha' with hold | hnew
    · exact h.apart j i h' g a hj hg ha hold
    · exact (hnew (d.debt_of_claim _ _ _ ha (h.claims h' (List.mem_of_getElem? hj)))).elim
  constructor
  · exact hu
  · simp [h.length]
  · intro h' hh'
    obtain ⟨j, hj⟩ := List.getElem?_of_mem hh'
    by_cases hne : j = i
    · subst hne
      rw [hself hj]
      exact hclaim
    · have hold := hother hj hne
      exact d.claim_later _ _ _ (hothers j h' hold hne) (h.claims h' (List.mem_of_getElem? hold))
  · intro j t' h' htj hj
    by_cases hne : j = i
    · subst hne
      rw [List.getElem?_set_self hi'] at htj
      cases htj
      rw [hself hj]
      exact d.own_step _ _ _ _ _ hstep (h.own j t g ht hg)
    · rw [List.getElem?_set_ne (Ne.symm hne)] at htj
      exact h.own j t' h' htj (hother hj hne)
  · intro j t' h' htj hj
    by_cases hne : j = i
    · subst hne
      rw [List.getElem?_set_self hi'] at htj
      cases htj
      rw [hself hj]
      exact hrest
    · have hold := hother hj hne
      rw [List.getElem?_set_ne (Ne.symm hne)] at htj
      exact (h.keeps j t' h' htj hold).later (hothers j h' hold hne)
  · intro j j' a b x hj hj' ha hb
    by_cases hne : j = i
    · by_cases hne' : j' = i
      · omega
      · subst hne
        rw [hself hj] at ha
        exact (hapart (hother hj' hne') hb ha).symm
    · by_cases hne' : j' = i
      · subst hne'
        rw [hself hj'] at hb
        exact hapart (hother hj hne) ha hb
      · exact h.apart j j' a b x (hother hj hne) (hother hj' hne') ha hb
  · intro a ha
    rcases d.settled _ _ _ _ _ _ hstep ha with hnew | ⟨hold, hnot⟩
    · exact ⟨g', List.mem_iff_getElem?.mpr ⟨i, List.getElem?_set_self hi⟩, hnew⟩
    · obtain ⟨h', hh', hholds⟩ := h.covered a hold
      obtain ⟨j, hj⟩ := List.getElem?_of_mem hh'
      have hne : j ≠ i := by
        rintro rfl
        rw [hg] at hj
        cases hj
        exact hnot hholds
      refine ⟨h', List.mem_iff_getElem?.mpr ⟨j, ?_⟩, hholds⟩
      rw [List.getElem?_set_ne (Ne.symm hne)]
      exact hj

/-- What becomes of the holdings in one event. -/
def Passes (d : Custody κ ω ν σ γ ρ) (begin : κ → γ) (w w' : Pool κ ω ν σ ε β) (gs gs' : List γ) :
    PoolEvent κ ω η → Prop
  | .enter k => gs' = gs ++ [begin k] ∧ d.past w.store w'.store
  | .run i _ => ∃ t g g', w.threads[i]? = some t ∧ gs[i]? = some g ∧ gs' = gs.set i g' ∧
      d.step t.call g g' w.store w'.store
  | .answer i => gs' = gs.eraseIdx i ∧ d.past w.store w'.store
  | .crash => False
  | .outside _ => gs' = gs ∧ d.past w.store w'.store

/-- What one event does to a pool whose threads hold their debts. -/
theorem Held.next {e : PoolEvent κ ω η} (h : w.Held d gs)
    (hbegin : ∀ k, d.holds (begin k) = none ∧ d.own k (begin k))
    (hscript : ∀ k s, d.inv s → d.claim (begin k) s ∧
      (script k).Keeps d k (fun g _ _ => d.holds g = none) (fun g _ _ => d.holds g = none)
        (begin k) s)
    (houtside : ∀ e s, d.inv s → d.inv (outside e s) ∧ d.past s (outside e s) ∧
      (∀ g, d.rely g s (outside e s)) ∧ ∀ a, d.debt a (outside e s) → d.debt a s)
    (hstep : Step script outside w e w') (hok : w.Permitted d.ok e) :
    ∃ gs', w'.Held d gs' ∧ Passes d begin w w' gs gs' e := by
  cases e with
  | enter k =>
      cases hstep
      obtain ⟨hclaim, hkeeps⟩ := hscript k _ h.inv
      exact ⟨_, h.enter (hbegin k).1 (hbegin k).2 hclaim hkeeps, rfl, d.past_refl _⟩
  | run i o =>
      simp only [Step, Pool.next] at hstep
      split at hstep
      · rename_i k δ name action rest hthread
        cases hstep
        have hi := (List.getElem?_eq_some_iff.mp hthread).1
        obtain ⟨g, hg⟩ : ∃ g, gs[i]? = some g :=
          ⟨_, List.getElem?_eq_getElem (by rw [h.length]; exact hi)⟩
        have hkeeps := h.keeps i _ g hthread hg _ h.inv (h.claims g (List.mem_of_getElem? hg))
          (d.rely_refl _ _) o (hok k name δ action rest hthread)
        obtain ⟨g', hu, hclaim, hone, hrest⟩ : ∃ g', d.inv (action o w.store).2 ∧
            d.claim g' (action o w.store).2 ∧ d.step k g g' w.store (action o w.store).2 ∧
            (rest (action o w.store).1).Keeps d k (fun g _ _ => d.holds g = none)
              (fun g _ _ => d.holds g = none) g' (action o w.store).2 := by
          revert hkeeps
          unfold Tx.wp
          rcases action o w.store with ⟨_ | x, u⟩
          · exact id
          · exact id
        exact ⟨_, h.act hthread hg hu hclaim hone hrest, _, g, g', hthread, hg, rfl, hone⟩
      · cases hstep
  | answer i =>
      simp only [Step, Pool.next] at hstep
      split at hstep
      · rename_i k result hthread
        cases hstep
        exact ⟨_, h.answer hthread, rfl, d.past_refl _⟩
      · cases hstep
  | crash => exact hok.elim
  | outside e =>
      cases hstep
      obtain ⟨hinv, hpast, hrely, hdebt⟩ := houtside e _ h.inv
      refine ⟨gs, ⟨hinv, h.length, ?_, h.own, ?_, h.apart, ?_⟩, rfl, hpast⟩
      · exact fun g hg => d.claim_later _ _ _ (hrely g) (h.claims g hg)
      · exact fun i t g ht hg => (h.keeps i t g ht hg).later (hrely g)
      · exact fun a ha => h.covered a (hdebt a ha)

theorem Passes.past {e : PoolEvent κ ω η} {gs' : List γ} (h : Passes d begin w w' gs gs' e) :
    d.past w.store w'.store := by
  cases e with
  | enter k => exact h.2
  | run i o =>
      obtain ⟨t, g, g', -, -, -, hstep⟩ := h
      exact d.past_of_step _ _ _ _ _ hstep
  | answer i => exact h.2
  | crash => exact h.elim
  | outside e => exact h.2

/-- What one event is for a thread with the holdings {lit}`g`: the thread is left alone, makes one
step, or answers. -/
inductive Follows (d : Custody κ ω ν σ γ ρ) (script : κ → Script ω ν σ ε β) (outside : η → σ → σ)
    (e : PoolEvent κ ω η) (es : List (PoolEvent κ ω η)) (w v : Pool κ ω ν σ ε β) (gs' : List γ)
    (i : ℕ) (t : Thread κ ω ν σ ε β) (g : γ) : Prop
  | waits {n : ℕ} (ht : v.threads[n]? = some t) (hg : gs'[n]? = some g)
      (hown : ownSteps script outside (e :: es) w i = ownSteps script outside es v n)
  | steps {p : Script ω ν σ ε β} {g' : γ} (ht : v.threads[i]? = some ⟨t.call, p⟩)
      (hg : gs'[i]? = some g') (hstep : d.step t.call g g' w.store v.store)
      (hown : ownSteps script outside (e :: es) w i =
        (w.store, v.store) :: ownSteps script outside es v i)
  | ends (hreleased : d.holds g = none) (hstore : v.store = w.store)
      (hown : ownSteps script outside (e :: es) w i = [])

section Follow

variable {es : List (PoolEvent κ ω η)} {gs' : List γ} {i j : ℕ} {t : Thread κ ω ν σ ε β} {g : γ}

/-- The step of a thread. -/
theorem Passes.follows_run {o : ω} (ht : w.threads[i]? = some t)
    (hg : gs[i]? = some g) (hnext : w.next script outside (.run j o) = some w')
    (hpasses : Passes d begin w w' gs gs' (.run j o : PoolEvent κ ω η)) :
    Follows d script outside (.run j o) es w w' gs' i t g := by
  have hi : i < gs.length := (List.getElem?_eq_some_iff.mp hg).1
  have hi' : i < w.threads.length := (List.getElem?_eq_some_iff.mp ht).1
  obtain ⟨t', a, a', ht', ha, rfl, hstep⟩ := hpasses
  obtain ⟨rest, hthreads⟩ : ∃ rest, w'.threads = w.threads.set j ⟨t'.call, rest⟩ := by
    have hone := hnext
    simp only [Pool.next, ht'] at hone
    split at hone
    · rename_i hthread
      cases hone
      cases hthread
      exact ⟨_, rfl⟩
    · cases hone
  by_cases hij : j = i
  · subst hij
    rw [ht] at ht'
    rw [hg] at ha
    cases ht'
    cases ha
    refine .steps (p := rest) ?_ (List.getElem?_set_self hi) hstep ?_
    · rw [hthreads, List.getElem?_set_self hi']
    · simp [ownSteps, hnext]
  · refine .waits (n := i) ?_ ?_ ?_
    · rwa [hthreads, List.getElem?_set_ne hij]
    · rwa [List.getElem?_set_ne hij]
    · simp [ownSteps, hnext, hij]

/-- The answer of a thread. -/
theorem Held.follows_answer (h : w.Held d gs) (ht : w.threads[i]? = some t)
    (hg : gs[i]? = some g) (hnext : w.next script outside (.answer j) = some w')
    (hpasses : Passes d begin w w' gs gs' (.answer j : PoolEvent κ ω η)) :
    Follows d script outside (.answer j) es w w' gs' i t g := by
  obtain ⟨rfl, -⟩ := hpasses
  obtain ⟨k, result, hthread, hstore, hthreads⟩ : ∃ k result,
      w.threads[j]? = some ⟨k, .done result⟩ ∧ w'.store = w.store ∧
        w'.threads = w.threads.eraseIdx j := by
    have hone := hnext
    simp only [Pool.next] at hone
    split at hone
    · rename_i k result hthread
      cases hone
      exact ⟨k, result, hthread, rfl, rfl⟩
    · cases hone
  by_cases hij : j = i
  · subst hij
    exact .ends (h.released hthread hg) hstore (by simp [ownSteps, hnext])
  · refine .waits (n := if j < i then i - 1 else i) ?_ ?_ ?_
    · rwa [hthreads, getElem?_eraseIdx_shift hij]
    · rwa [getElem?_eraseIdx_shift hij]
    · simp [ownSteps, hnext, hij]

/-- What one event is for a thread. -/
theorem Held.follows {e : PoolEvent κ ω η} (h : w.Held d gs) (ht : w.threads[i]? = some t)
    (hg : gs[i]? = some g) (hnext : w.next script outside e = some w')
    (hpasses : Passes d begin w w' gs gs' e) :
    Follows d script outside e es w w' gs' i t g := by
  have hi : i < gs.length := (List.getElem?_eq_some_iff.mp hg).1
  have hi' : i < w.threads.length := (List.getElem?_eq_some_iff.mp ht).1
  cases e with
  | enter k =>
      obtain ⟨rfl, -⟩ := hpasses
      have hown : ownSteps script outside (.enter k :: es) w i =
          ownSteps script outside es w' i := by
        simp [ownSteps, hnext]
      cases hnext
      refine .waits (n := i) ?_ ?_ hown
      · rwa [List.getElem?_append_left hi']
      · rwa [List.getElem?_append_left hi]
  | run j o => exact Passes.follows_run ht hg hnext hpasses
  | answer j => exact h.follows_answer ht hg hnext hpasses
  | crash => exact hpasses.elim
  | outside e =>
      obtain ⟨rfl, -⟩ := hpasses
      have hown : ownSteps script outside (.outside e :: es) w i =
          ownSteps script outside es w' i := by
        simp [ownSteps, hnext]
      cases hnext
      exact .waits ht hg hown

end Follow

section Rules

variable (hbegin : ∀ k, d.holds (begin k) = none ∧ d.own k (begin k))
  (hscript : ∀ k s, d.inv s → d.claim (begin k) s ∧
    (script k).Keeps d k (fun g _ _ => d.holds g = none) (fun g _ _ => d.holds g = none)
      (begin k) s)
  (houtside : ∀ e s, d.inv s → d.inv (outside e s) ∧ d.past s (outside e s) ∧
    (∀ g, d.rely g s (outside e s)) ∧ ∀ a, d.debt a (outside e s) → d.debt a s)

include hbegin hscript houtside

/-- Every debt stays in the hands of exactly one thread. -/
theorem Held.run {es : List (PoolEvent κ ω η)} (h : w.Held d gs)
    (hrun : Run (Guarded (Step script outside) (Permitted d.ok)) w es w') :
    ∃ gs', w'.Held d gs' ∧ d.past w.store w'.store := by
  induction hrun with
  | nil => exact ⟨gs, h, d.past_refl _⟩
  | snoc _ hlast ih =>
      obtain ⟨gs', h', hpast⟩ := ih
      obtain ⟨gs'', h'', hpasses⟩ := h'.next hbegin hscript houtside hlast.1 hlast.2
      exact ⟨gs'', h'', d.past_trans _ _ _ hpast hpasses.past⟩

/-- A thread that ends without having passed a point of no return has done nothing but
quiet steps: once it has passed that point, all is fine, and stays so. -/
theorem Held.isolated {tainted : κ → γ → Prop} {quiet : σ → σ → Prop} {fine : κ → σ → Prop}
    (hquiet : ∀ k g g' s t, d.step k g g' s t → tainted k g' ∨ quiet s t)
    (htainted : ∀ k g g' s t, d.step k g g' s t → tainted k g → tainted k g')
    (hfine : ∀ k g s, d.inv s → tainted k g → d.claim g s → fine k s)
    (hends : ∀ k g s t, tainted k g → d.holds g = none → d.claim g s → d.past s t → d.claim g t)
    {es : List (PoolEvent κ ω η)} {i : ℕ} {t : Thread κ ω ν σ ε β} {g : γ} (h : w.Held d gs)
    (ht : w.threads[i]? = some t) (hg : gs[i]? = some g)
    (hrun : Run (Guarded (Step script outside) (Permitted d.ok)) w es w') :
    (tainted t.call g → fine t.call w'.store) ∧
      (fine t.call w'.store ∨ ∀ p ∈ ownSteps script outside es w i, quiet p.1 p.2) := by
  induction es generalizing w gs i t g with
  | nil =>
      rw [run_nil_iff] at hrun
      subst hrun
      refine ⟨fun htaint => ?_, .inr fun _ hp => (List.not_mem_nil hp).elim⟩
      exact hfine _ _ _ h.inv htaint (h.claims g (List.mem_of_getElem? hg))
  | cons e es ih =>
      obtain ⟨v, hfirst, hrest⟩ := run_cons_iff.mp hrun
      obtain ⟨gs', hv, hpasses⟩ := h.next hbegin hscript houtside hfirst.1 hfirst.2
      have hfollows : Follows d script outside e es w v gs' i t g :=
        h.follows ht hg hfirst.1 hpasses
      cases hfollows with
      | waits ht' hg' hown =>
          rw [hown]
          exact ih hv ht' hg' hrest
      | steps ht' hg' hstep hown =>
          obtain ⟨hlast, hall⟩ := ih hv ht' hg' hrest
          refine ⟨fun htaint => hlast (htainted _ _ _ _ _ hstep htaint), ?_⟩
          rcases hquiet _ _ _ _ _ hstep with htaint | hone
          · exact .inl (hlast htaint)
          · refine hall.imp_right fun hall p hp => ?_
            rw [hown] at hp
            rcases List.mem_cons.mp hp with rfl | hp
            · exact hone
            · exact hall p hp
      | ends hreleased hstore hown =>
          refine ⟨fun htaint => ?_, .inr fun p hp => ?_⟩
          · obtain ⟨_, hend, hpast⟩ := hv.run hbegin hscript houtside hrest
            rw [hstore] at hpast
            apply hfine _ g _ hend.inv htaint
            exact hends _ _ _ _ htaint hreleased (h.claims g (List.mem_of_getElem? hg)) hpast
          · rw [hown] at hp
            exact (List.not_mem_nil hp).elim

end Rules

end Runs

end Pool

end Library
end DarkXray
