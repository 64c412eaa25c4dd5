import DarkXray.Library.Threads

/-!
# What actions do and what comes of them

An action of a script is judged together with what is left of the script after it.  In
this way a script can be shown to return only after an action that had a certain effect, and to
raise only after actions that had none.

Main results:

- Theorem {lit}`Script.Each.bind`: the rule of sequence.
- Theorem {lit}`Pool.Each.next` and {lit}`Pool.Each.run`: threads stay as they were judged.
- Theorem {lit}`Pool.Each.acted`: what an action of a thread has done.
-/

namespace DarkXray
namespace Library

variable {κ ω ν η σ ε β γ : Type}

namespace Script

/-- What a script has returned. -/
def returned : Script ω ν σ ε β → Option β
  | done (.ok b) => some b
  | _ => none

section Returned

variable {f : β → Script ω ν σ ε γ}

/-- A value is returned. -/
@[simp]
theorem returned_pure {b : β} : (pure b : Script ω ν σ ε β).returned = some b :=
  rfl

/-- An exception returns nothing. -/
@[simp]
theorem returned_raise {e : ε} : (raise e : Script ω ν σ ε β).returned = none :=
  rfl

/-- A failed script returns nothing. -/
@[simp]
theorem returned_error {e : ε} : (done (.error e) : Script ω ν σ ε β).returned = none :=
  rfl

/-- A finished script returns its value. -/
@[simp]
theorem returned_ok {b : β} : (done (.ok b) : Script ω ν σ ε β).returned = some b :=
  rfl

/-- A script that still acts returns nothing. -/
@[simp]
theorem returned_perform {name : ν} {action : ω → Tx σ ε β} :
    (perform name action).returned = none :=
  rfl

/-- A sequence returns what its second part does. -/
@[simp]
theorem returned_bind {p : Script ω ν σ ε β} :
    (p >>= f).returned = p.returned.bind fun b => (f b).returned := by
  cases p with
  | done result =>
      cases result with
      | ok b => rfl
      | error e => rfl
  | act name action next => rfl

end Returned

/-- Every action that a script may perform, from whatever store, is in a relation with the
stores before and after it and with what is left of the script. -/
def Each (good : ω → σ → σ → Script ω ν σ ε β → Prop) : Script ω ν σ ε β → Prop
  | done _ => True
  | act _ action next => ∀ o s,
      good o s (action o s).2 (next (action o s).1) ∧ (next (action o s).1).Each good

variable {good : ω → σ → σ → Script ω ν σ ε γ → Prop} {p : Script ω ν σ ε β}

/-- The rule of outcomes. -/
theorem Each.attempt {f : Except ε β → Script ω ν σ ε γ}
    (h : p.Each fun o s t rest => good o s t (rest.attempt f)) (hf : ∀ x, (f x).Each good) :
    (p.attempt f).Each good := by
  induction p with
  | done result => exact hf result
  | act name action next ih => exact fun o s => ⟨(h o s).1, ih _ (h o s).2⟩

/-- The rule of sequence. -/
theorem Each.bind {f : β → Script ω ν σ ε γ}
    (h : p.Each fun o s t rest => good o s t (rest >>= f)) (hf : ∀ b, (f b).Each good) :
    (p >>= f).Each good := by
  apply Each.attempt h
  intro x
  cases x with
  | ok b => exact hf b
  | error e => trivial

/-- The rule of actions. -/
theorem Each.perform {good : ω → σ → σ → Script ω ν σ ε β → Prop} {name : ν}
    {action : ω → Tx σ ε β} (h : ∀ o s, (action o).wp (fun b t => good o s t (done (.ok b)))
      (fun e t => good o s t (done (.error e))) s) : (Script.perform name action).Each good := by
  intro o s
  have hwp := h o s
  unfold Tx.wp at hwp
  refine ⟨?_, trivial⟩
  revert hwp
  rcases action o s with ⟨_ | b, t⟩
  · exact id
  · exact id

/-- An exception has no action. -/
theorem Each.raise {good : ω → σ → σ → Script ω ν σ ε β → Prop} {e : ε} :
    (Script.raise e : Script ω ν σ ε β).Each good :=
  trivial

/-- A value has no action. -/
theorem Each.pure {good : ω → σ → σ → Script ω ν σ ε β → Prop} {b : β} :
    (pure b : Script ω ν σ ε β).Each good :=
  trivial

/-- What follows from a relation holds as well. -/
theorem Each.mono {good good' : ω → σ → σ → Script ω ν σ ε β → Prop} (h : p.Each good)
    (himp : ∀ o s t rest, good o s t rest → good' o s t rest) : p.Each good' := by
  induction p with
  | done result => trivial
  | act name action next ih => exact fun o s => ⟨himp _ _ _ _ (h o s).1, ih _ (h o s).2⟩

end Script

namespace Pool

variable {script : κ → Script ω ν σ ε β} {outside : η → σ → σ} {w w' : Pool κ ω ν σ ε β}
  {good : κ → ω → σ → σ → Script ω ν σ ε β → Prop}

/-- All threads are judged by their calls. -/
def Each (good : κ → ω → σ → σ → Script ω ν σ ε β → Prop) (w : Pool κ ω ν σ ε β) : Prop :=
  ∀ t ∈ w.threads, t.rest.Each (good t.call)

/-- The call of a thread, and what it has returned. -/
def returned? (w : Pool κ ω ν σ ε β) (i : ℕ) : Option (κ × β) :=
  (w.threads[i]?).bind fun t => t.rest.returned.map fun b => (t.call, b)

/-- What the next action of a thread is. -/
theorem step_run_iff {i : ℕ} {o : ω} :
    Step script outside w (.run i o) w' ↔
      ∃ (k : κ) (γ : Type) (name : ν) (action : ω → Tx σ ε γ)
        (next : Except ε γ → Script ω ν σ ε β),
        w.threads[i]? = some ⟨k, .act name action next⟩ ∧
          w' = { w with
            store := (action o w.store).2
            threads := w.threads.set i ⟨k, next (action o w.store).1⟩ } := by
  simp only [Step, Pool.next]
  constructor
  · intro h
    split at h
    · rename_i k γ name action next hthread
      exact ⟨k, γ, name, action, next, hthread, (Option.some.inj h).symm⟩
    · cases h
  · rintro ⟨k, γ, name, action, next, hthread, rfl⟩
    rw [hthread]

/-- Every event keeps what is said about the actions. -/
theorem Each.next {e : PoolEvent κ ω η} (h : w.Each good) (hscript : ∀ k, (script k).Each (good k))
    (hstep : Step script outside w e w') : w'.Each good := by
  cases e with
  | enter k =>
      cases hstep
      intro t ht
      rcases List.mem_append.mp ht with hold | hnew
      · exact h t hold
      · obtain rfl := List.mem_singleton.mp hnew
        exact hscript k
  | run i o =>
      obtain ⟨k, γ, name, action, next, hthread, rfl⟩ := step_run_iff.mp hstep
      intro t ht
      rcases List.mem_or_eq_of_mem_set ht with hold | rfl
      · exact h t hold
      · exact (h _ (List.mem_of_getElem? hthread) o w.store).2
  | answer i =>
      simp only [Step, Pool.next] at hstep
      split at hstep
      · cases hstep
        exact fun t ht => h t (List.mem_of_mem_eraseIdx ht)
      · cases hstep
  | crash =>
      cases hstep
      exact fun _ ht => (List.not_mem_nil ht).elim
  | outside e =>
      cases hstep
      exact h

/-- Threads stay as they were judged over every run from a pool without any. -/
theorem Each.run {s : σ} {es : List (PoolEvent κ ω η)} (hscript : ∀ k, (script k).Each (good k))
    (hrun : Run (Step script outside) (start s) es w) : w.Each good :=
  hrun.invariant (fun _ ht => (List.not_mem_nil ht).elim) fun _ _ _ h hstep =>
    h.next hscript hstep

/-- What an action of a thread has done. -/
theorem Each.acted {i : ℕ} {o : ω} (h : w.Each good)
    (hstep : Step script outside w (.run i o) w') :
    ∃ (k : κ) (rest : Script ω ν σ ε β), w'.threads[i]? = some ⟨k, rest⟩ ∧
      good k o w.store w'.store rest := by
  obtain ⟨k, γ, name, action, next, hthread, rfl⟩ := step_run_iff.mp hstep
  have hlt : i < w.threads.length := (List.getElem?_eq_some_iff.mp hthread).1
  refine ⟨k, next (action o w.store).1, ?_, ?_⟩
  · rw [List.getElem?_set_self hlt]
  · exact (h _ (List.mem_of_getElem? hthread) o w.store).1

end Pool

end Library
end DarkXray
