import DarkXray.Library.Threads

/-!
# Calls one after another

In a sequence of calls only one thread runs at a time.  Between two of its actions
nothing happens, so what a script has learned stays true until it acts itself.

Main results:

- Theorems {lit}`Script.alone_attempt`, {lit}`Script.alone_bind` and
  {lit}`Script.alone_handle`: the rules of the constructs of a script.
- Theorem {lit}`Script.Alone.exec`: a script that is carried out, as a whole or in part.
- Theorem {lit}`Pool.Alone.next`: what one event does to a pool with one thread.
-/

namespace DarkXray
namespace Library

namespace Script

variable {ω ν σ ε β γ : Type} {step : σ → σ → Prop} {s : σ}

/-- From a store on, and with nothing else going on, every action of a script is a step
of the given kind, and the script returns into {lit}`q` or raises into {lit}`r`. -/
def Alone (step : σ → σ → Prop) (q : β → σ → Prop) (r : ε → σ → Prop) :
    Script ω ν σ ε β → σ → Prop
  | done (.ok b), s => q b s
  | done (.error e), s => r e s
  | act _ action next, s => ∀ o,
      (action o).wp (fun x t => step s t ∧ (next (.ok x)).Alone step q r t)
        (fun e t => step s t ∧ (next (.error e)).Alone step q r t) s

section Rules

variable {p : Script ω ν σ ε β} {q q' : β → σ → Prop} {r r' : ε → σ → Prop}

/-- The rule of outcomes. -/
theorem alone_attempt {f : Except ε β → Script ω ν σ ε γ} {q : γ → σ → Prop} :
    (p.attempt f).Alone step q r s ↔
      p.Alone step (fun b t => (f (.ok b)).Alone step q r t)
        (fun e t => (f (.error e)).Alone step q r t) s := by
  induction p generalizing s with
  | done result =>
      cases result with
      | ok b => exact Iff.rfl
      | error e => exact Iff.rfl
  | act name action next ih =>
      simp only [attempt, Alone, ih]

/-- The rule of sequence: an exception skips the rest. -/
theorem alone_bind {f : β → Script ω ν σ ε γ} {q : γ → σ → Prop} :
    (p >>= f).Alone step q r s ↔ p.Alone step (fun b t => (f b).Alone step q r t) r s :=
  alone_attempt

/-- The rule of handlers. -/
theorem alone_handle {f : ε → Script ω ν σ ε β} :
    (p.handle f).Alone step q r s ↔ p.Alone step q (fun e t => (f e).Alone step q r t) s :=
  alone_attempt

theorem alone_ofExcept {x : Except ε β} :
    (ofExcept x : Script ω ν σ ε β).Alone step q r s ↔
      (∀ b, x = .ok b → q b s) ∧ ∀ e, x = .error e → r e s := by
  cases x with
  | ok b => simp [ofExcept, Alone]
  | error e => simp [ofExcept, Alone]

/-- The rule of consequence. -/
theorem Alone.mono (h : p.Alone step q r s) (hq : ∀ b t, q b t → q' b t)
    (hr : ∀ e t, r e t → r' e t) : p.Alone step q' r' s := by
  induction p generalizing s with
  | done result =>
      cases result with
      | ok b => exact hq b s h
      | error e => exact hr e s h
  | act name action next ih =>
      intro o
      apply Tx.wp_mono (h o)
      · exact fun x t ht => ⟨ht.1, ih _ ht.2⟩
      · exact fun e t ht => ⟨ht.1, ih _ ht.2⟩

/-- Carry out a script with the given inputs.  If they run out first, it is cut off and has no
result. -/
def exec : Script ω ν σ ε β → List ω → σ → Option (Except ε β) × σ
  | done result, _, s => (some result, s)
  | act _ _ _, [], s => (none, s)
  | act _ action next, o :: os, s =>
      (next (action o s).1).exec os (action o s).2

/-- However far a script is carried out, its actions are steps of the given kind, and if it ends
its result is as promised. -/
theorem Alone.exec (h : p.Alone step q r s) (hrefl : ∀ s, step s s)
    (htrans : ∀ s t u, step s t → step t u → step s u) (os : List ω) :
    step s (p.exec os s).2 ∧ (∀ b, (p.exec os s).1 = some (.ok b) → q b (p.exec os s).2) ∧
      ∀ e, (p.exec os s).1 = some (.error e) → r e (p.exec os s).2 := by
  induction p generalizing s os with
  | done result =>
      refine ⟨hrefl s, ?_, ?_⟩
      · intro b hb
        cases Option.some.inj hb
        exact h
      · intro e he
        cases Option.some.inj he
        exact h
  | act name action next ih =>
      cases os with
      | nil =>
          refine ⟨hrefl s, ?_, ?_⟩
          · intro b hb
            cases hb
          · intro e he
            cases he
      | cons o os =>
          have hstep : step s (action o s).2 ∧
              (next (action o s).1).Alone step q r (action o s).2 := by
            have hwp := h o
            unfold Tx.wp at hwp
            generalize action o s = result at hwp
            rcases result with ⟨e | x, t⟩
            · exact hwp
            · exact hwp
          have hrest := ih (action o s).1 hstep.2 os
          exact ⟨htrans _ _ _ hstep.1 hrest.1, hrest.2⟩

end Rules

end Script

/-! ## Sequences of calls -/

namespace Pool

variable {κ ω ν η σ ε β : Type}

/-- A call begins when the one before it has ended, and there are no crashes; a call may
need a condition on the store. -/
def InTurn (ok : κ → σ → Prop) (w : Pool κ ω ν σ ε β) : PoolEvent κ ω η → Prop
  | .enter k => w.threads.length = 0 ∧ ok k w.store
  | .outside _ => w.threads.length = 0
  | .crash => False
  | .run _ _ => True
  | .answer _ => True

/-- Whether an event comes in turn can be computed. -/
instance decidableInTurn {ok : κ → σ → Prop} [∀ k s, Decidable (ok k s)]
    (w : Pool κ ω ν σ ε β) (e : PoolEvent κ ω η) : Decidable (w.InTurn ok e) :=
  match e with
  | .enter _ => instDecidableAnd
  | .outside _ => inferInstanceAs (Decidable (_ = _))
  | .crash => .isFalse not_false
  | .run _ _ => .isTrue trivial
  | .answer _ => .isTrue trivial

/-- The store keeps an invariant, and the thread that is running, if there is one, can do
no more than the steps of its call. -/
structure Alone (inv : σ → Prop) (step : κ → σ → σ → Prop) (w : Pool κ ω ν σ ε β) : Prop where
  inv : inv w.store
  threads : w.threads.length ≤ 1
  safe : ∀ t ∈ w.threads,
    t.rest.Alone (step t.call) (fun _ _ => True) (fun _ _ => True) w.store

section Runs

variable {inv : σ → Prop} {step : κ → σ → σ → Prop} {ok : κ → σ → Prop}
  {script : κ → Script ω ν σ ε β} {outside : η → σ → σ} {w w' : Pool κ ω ν σ ε β}

theorem alone_start {s : σ} (hs : inv s) : (start s : Pool κ ω ν σ ε β).Alone inv step :=
  ⟨hs, Nat.zero_le 1, fun _ ht => (List.not_mem_nil ht).elim⟩

/-- Where the threads of a pool are changed, the one that is running is the only one. -/
theorem Alone.only (h : w.Alone inv step) {i : ℕ} {t : Thread κ ω ν σ ε β}
    (ht : w.threads[i]? = some t) : i = 0 ∧ w.threads = [t] := by
  have hlength := h.threads
  rcases hthreads : w.threads with _ | ⟨u, us⟩
  · simp [hthreads] at ht
  · rw [hthreads, List.length_cons] at hlength
    have hus : us = [] := List.length_eq_zero_iff.mp (by omega)
    subst hus
    rw [hthreads] at ht
    cases i with
    | zero =>
        have hut : u = t := by simpa using ht
        exact ⟨rfl, by rw [hut]⟩
    | succ i => simp at ht

/-- What one event does: the store changes by a step of the running call, or by the event
from outside. -/
theorem Alone.next {e : PoolEvent κ ω η} (h : w.Alone inv step)
    (hscript : ∀ k s, inv s → ok k s →
      (script k).Alone (step k) (fun _ _ => True) (fun _ _ => True) s)
    (hinv : ∀ k s t, inv s → step k s t → inv t)
    (houtside : ∀ e s, inv s → inv (outside e s))
    (hstep : Step script outside w e w') (hturn : w.InTurn ok e) :
    w'.Alone inv step ∧
      (w'.store = w.store ∨ (∃ t ∈ w.threads, step t.call w.store w'.store) ∨
        ∃ e, w'.store = outside e w.store) := by
  cases e with
  | enter k =>
      cases hstep
      have hnone : w.threads = [] := List.length_eq_zero_iff.mp hturn.1
      refine ⟨⟨h.inv, by simp [hnone], fun t ht => ?_⟩, .inl rfl⟩
      rw [hnone, List.nil_append, List.mem_singleton] at ht
      subst ht
      exact hscript k _ h.inv hturn.2
  | run i o =>
      simp only [Step, Pool.next] at hstep
      split at hstep
      · rename_i k γ name action rest hthread
        cases hstep
        obtain ⟨rfl, hthreads⟩ := h.only hthread
        have hsafe := h.safe _ (List.mem_of_getElem? hthread) o
        have hnew : step k w.store (action o w.store).2 ∧
            (rest (action o w.store).1).Alone (step k) (fun _ _ => True) (fun _ _ => True)
              (action o w.store).2 := by
          revert hsafe
          unfold Tx.wp
          rcases action o w.store with ⟨_ | x, u⟩
          · exact id
          · exact id
        refine ⟨⟨hinv _ _ _ h.inv hnew.1, ?_, fun t ht => ?_⟩, .inr (.inl ?_)⟩
        · simp [hthreads]
        · simp only [hthreads, List.set_cons_zero, List.mem_singleton] at ht
          subst ht
          exact hnew.2
        · exact ⟨_, List.mem_of_getElem? hthread, hnew.1⟩
      · cases hstep
  | answer i =>
      simp only [Step, Pool.next] at hstep
      split at hstep
      · rename_i k result hthread
        cases hstep
        obtain ⟨rfl, hthreads⟩ := h.only hthread
        refine ⟨⟨h.inv, by simp [hthreads], fun t ht => ?_⟩, .inl rfl⟩
        exact h.safe t (List.mem_of_mem_eraseIdx ht)
      · cases hstep
  | crash => exact hturn.elim
  | outside e =>
      cases hstep
      have hnone : w.threads = [] := List.length_eq_zero_iff.mp hturn
      refine ⟨⟨houtside e _ h.inv, h.threads, fun t ht => ?_⟩, .inr (.inr ⟨e, rfl⟩)⟩
      rw [hnone] at ht
      exact (List.not_mem_nil ht).elim

end Runs

end Pool

end Library
end DarkXray
