import DarkXray.Library.Preconditions
import DarkXray.Library.Runs

/-!
# Threads that share a store

A thread is a script: it performs atomic actions on a store that it shares with the
other threads, and computes on its own in between.  Any number of threads run, their
actions interleave in any order, and a crash can drop them all between two actions.

Scripts are proved safe one at a time.  All threads together keep an invariant, and
each of their actions is a step of a certain kind.  The steps lie within a preorder on
stores: what a script has learned may be used later if the preorder preserves it.

Main results:

- Theorem {lit}`Script.Safe.later`: a script that is safe stays safe under the actions
  of other threads.
- Theorem {lit}`Script.Safe.bind` and the rules next to it: the rules of the constructs
  of a script.
- Theorem {lit}`Script.Steady.safe`: a script each of whose actions keeps the discipline
  by itself is safe.
- Theorem {lit}`Pool.Safe.run`: safe threads keep the invariant, whatever happens.
-/

namespace DarkXray
namespace Library

/-! ## Scripts -/

/-- Scripts that return {lit}`β` or raise {lit}`ε`.  Each action on the store
{lit}`σ` has a name {lit}`ν`, and takes an input {lit}`ω` from the environment. -/
inductive Script (ω ν σ ε β : Type) : Type 1 where
  | done (result : Except ε β)
  | act {γ : Type} (name : ν) (action : ω → Tx σ ε γ) (next : Except ε γ → Script ω ν σ ε β)

namespace Script

variable {ω ν σ ε β γ : Type}

/-- Go on with the outcome of a script. -/
def attempt : Script ω ν σ ε β → (Except ε β → Script ω ν σ ε γ) → Script ω ν σ ε γ
  | done result, f => f result
  | act name action next, f => act name action fun x => (next x).attempt f

instance : Monad (Script ω ν σ ε) where
  pure b := done (.ok b)
  bind s f := s.attempt fun
    | .ok b => f b
    | .error e => done (.error e)

/-- Raise an exception. -/
def raise (e : ε) : Script ω ν σ ε β :=
  done (.error e)

/-- The outcome of a pure computation. -/
def ofExcept (x : Except ε β) : Script ω ν σ ε β :=
  done x

/-- One action. -/
def perform (name : ν) (action : ω → Tx σ ε β) : Script ω ν σ ε β :=
  act name action done

/-- Go on with a handler when a script raises. -/
def handle (s : Script ω ν σ ε β) (h : ε → Script ω ν σ ε β) : Script ω ν σ ε β :=
  s.attempt fun
    | .ok b => done (.ok b)
    | .error e => h e

end Script

/-- What all threads guarantee and rely on: an invariant of the store, the kind of step
that every action is, a preorder that the steps lie in, and the condition under which a
named action may be performed. -/
structure Discipline (ω ν σ : Type) where
  inv : σ → Prop
  step : σ → σ → Prop
  rel : σ → σ → Prop
  ok : ν → ω → σ → Prop
  refl : ∀ s, step s s
  sub : ∀ s t, step s t → rel s t
  trans : ∀ s t u, rel s t → rel t u → rel s u

/-- Time may stand still. -/
theorem Discipline.rel_refl {ω ν σ : Type} (d : Discipline ω ν σ) (s : σ) : d.rel s s :=
  d.sub s s (d.refl s)

namespace Script

variable {ω ν σ ε β γ : Type} {d : Discipline ω ν σ} {s t : σ}

/-- From a store on, whatever the other threads do, a script keeps the discipline and
returns into {lit}`q` or raises into {lit}`r`. -/
def Safe (d : Discipline ω ν σ) (q : β → σ → Prop) (r : ε → σ → Prop) :
    Script ω ν σ ε β → σ → Prop
  | done (.ok b), s => ∀ t, d.inv t → d.rel s t → q b t
  | done (.error e), s => ∀ t, d.inv t → d.rel s t → r e t
  | act name action next, s => ∀ t, d.inv t → d.rel s t → ∀ o, d.ok name o t →
      (action o).wp (fun x u => d.inv u ∧ d.step t u ∧ (next (.ok x)).Safe d q r u)
        (fun e u => d.inv u ∧ d.step t u ∧ (next (.error e)).Safe d q r u) t

section Safe

variable {q : β → σ → Prop} {r : ε → σ → Prop} {p : Script ω ν σ ε β}

/-- What is safe stays safe later. -/
theorem Safe.later (h : p.Safe d q r s) (hrel : d.rel s t) : p.Safe d q r t := by
  cases p with
  | done result =>
      cases result with
      | ok b => exact fun u hu hlater => h u hu (d.trans _ _ _ hrel hlater)
      | error e => exact fun u hu hlater => h u hu (d.trans _ _ _ hrel hlater)
  | act name action next => exact fun u hu hlater => h u hu (d.trans _ _ _ hrel hlater)

/-- The rule of consequence. -/
theorem Safe.mono {q' : β → σ → Prop} {r' : ε → σ → Prop} (h : p.Safe d q r s)
    (hq : ∀ b t, q b t → q' b t) (hr : ∀ e t, r e t → r' e t) : p.Safe d q' r' s := by
  induction p generalizing s with
  | done result =>
      cases result with
      | ok b => exact fun t ht hrel => hq b t (h t ht hrel)
      | error e => exact fun t ht hrel => hr e t (h t ht hrel)
  | act name action next ih =>
      intro t ht hrel o ho
      apply Tx.wp_mono (h t ht hrel o ho)
      · exact fun x u hu => ⟨hu.1, hu.2.1, ih _ hu.2.2⟩
      · exact fun e u hu => ⟨hu.1, hu.2.1, ih _ hu.2.2⟩

/-- The rule of outcomes: what comes after a script may use that its store is a later one. -/
theorem Safe.attempt {f : Except ε β → Script ω ν σ ε γ} {q' : γ → σ → Prop}
    {r' : ε → σ → Prop} (h : p.Safe d q r s) (hs : d.inv s)
    (hok : ∀ b t, d.inv t → d.rel s t → (∀ u, d.inv u → d.rel t u → q b u) →
      (f (.ok b)).Safe d q' r' t)
    (herror : ∀ e t, d.inv t → d.rel s t → (∀ u, d.inv u → d.rel t u → r e u) →
      (f (.error e)).Safe d q' r' t) :
    (p.attempt f).Safe d q' r' s := by
  induction p generalizing s with
  | done result =>
      cases result with
      | ok b => exact hok b s hs (d.rel_refl s) h
      | error e => exact herror e s hs (d.rel_refl s) h
  | act name action next ih =>
      intro t ht hlater o ho
      have hnext : ∀ x u, d.inv u → d.rel t u → (next x).Safe d q r u →
          ((next x).attempt f).Safe d q' r' u := by
        intro x u hu hrel hsafe
        apply ih x hsafe hu
        · intro b v hv hrel' hb
          exact hok b v hv (d.trans _ _ _ hlater (d.trans _ _ _ hrel hrel')) hb
        · intro e v hv hrel' he
          exact herror e v hv (d.trans _ _ _ hlater (d.trans _ _ _ hrel hrel')) he
      apply Tx.wp_mono (h t ht hlater o ho)
      · exact fun x u hu => ⟨hu.1, hu.2.1, hnext _ u hu.1 (d.sub t u hu.2.1) hu.2.2⟩
      · exact fun e u hu => ⟨hu.1, hu.2.1, hnext _ u hu.1 (d.sub t u hu.2.1) hu.2.2⟩

/-- The rule of sequence: an exception skips the rest. -/
theorem Safe.bind {f : β → Script ω ν σ ε γ} {q' : γ → σ → Prop} (h : p.Safe d q r s)
    (hs : d.inv s) (hf : ∀ b t, d.inv t → d.rel s t → q b t → (f b).Safe d q' r t) :
    (p >>= f).Safe d q' r s :=
  h.attempt hs (fun b t ht hrel hb => hf b t ht hrel (hb t ht (d.rel_refl t)))
    fun _ _ _ _ he => he

/-- The rule of handlers. -/
theorem Safe.handle {f : ε → Script ω ν σ ε β} {r' : ε → σ → Prop} (h : p.Safe d q r s)
    (hs : d.inv s) (hf : ∀ e t, d.inv t → d.rel s t → r e t → (f e).Safe d q r' t) :
    (p.handle f).Safe d q r' s :=
  h.attempt hs (fun _ _ _ _ hb => hb)
    fun e t ht hrel he => hf e t ht hrel (he t ht (d.rel_refl t))

/-- The rule of actions. -/
theorem Safe.perform {name : ν} {action : ω → Tx σ ε β}
    (h : ∀ t, d.inv t → d.rel s t → ∀ o, d.ok name o t →
      (action o).wp
        (fun x u => d.inv u ∧ d.step t u ∧ ∀ v, d.inv v → d.rel u v → q x v)
        (fun e u => d.inv u ∧ d.step t u ∧ ∀ v, d.inv v → d.rel u v → r e v) t) :
    (perform name action).Safe d q r s :=
  h

/-- The rule of a value. -/
theorem Safe.pure {b : β} (h : ∀ t, d.inv t → d.rel s t → q b t) :
    (pure b : Script ω ν σ ε β).Safe d q r s :=
  h

/-- The rule of an exception. -/
theorem Safe.raise {e : ε} (h : ∀ t, d.inv t → d.rel s t → r e t) :
    (raise e : Script ω ν σ ε β).Safe d q r s :=
  h

/-- The rule of a result. -/
theorem Safe.ofExcept {x : Except ε β} (hok : ∀ b, x = .ok b → ∀ t, d.inv t → d.rel s t → q b t)
    (herror : ∀ e, x = .error e → ∀ t, d.inv t → d.rel s t → r e t) :
    (ofExcept x : Script ω ν σ ε β).Safe d q r s := by
  cases x with
  | ok b => exact hok b rfl
  | error e => exact herror e rfl

end Safe

/-! ### Scripts with steady actions -/

/-- Every action that a script may perform keeps the discipline, whatever the script has
learned before. -/
def Steady (d : Discipline ω ν σ) : Script ω ν σ ε β → Prop
  | done _ => True
  | act name action next =>
      (∀ o t, d.inv t → d.ok name o t →
        (action o).wp (fun _ u => d.inv u ∧ d.step t u) (fun _ u => d.inv u ∧ d.step t u) t) ∧
      ∀ x, (next x).Steady d

section Steady

variable {p : Script ω ν σ ε β}

/-- The rule of outcomes. -/
theorem Steady.attempt {f : Except ε β → Script ω ν σ ε γ} (h : p.Steady d)
    (hf : ∀ x, (f x).Steady d) : (p.attempt f).Steady d := by
  induction p with
  | done result => exact hf result
  | act name action next ih => exact ⟨h.1, fun x => ih x (h.2 x)⟩

/-- The rule of sequence. -/
theorem Steady.bind {f : β → Script ω ν σ ε γ} (h : p.Steady d) (hf : ∀ b, (f b).Steady d) :
    (p >>= f).Steady d := by
  apply h.attempt
  intro x
  cases x with
  | ok b => exact hf b
  | error e => trivial

/-- The rule of handlers. -/
theorem Steady.handle {f : ε → Script ω ν σ ε β} (h : p.Steady d) (hf : ∀ e, (f e).Steady d) :
    (p.handle f).Steady d := by
  apply h.attempt
  intro x
  cases x with
  | ok b => trivial
  | error e => exact hf e

/-- The rule of actions. -/
theorem Steady.perform {name : ν} {action : ω → Tx σ ε β}
    (h : ∀ o t, d.inv t → d.ok name o t →
      (action o).wp (fun _ u => d.inv u ∧ d.step t u) (fun _ u => d.inv u ∧ d.step t u) t) :
    (perform name action).Steady d :=
  ⟨h, fun _ => trivial⟩

/-- A value keeps every discipline. -/
theorem Steady.pure {b : β} : (pure b : Script ω ν σ ε β).Steady d :=
  trivial

/-- An exception keeps every discipline. -/
theorem Steady.raise {e : ε} : (raise e : Script ω ν σ ε β).Steady d :=
  trivial

/-- A result keeps every discipline. -/
theorem Steady.ofExcept {x : Except ε β} : (ofExcept x : Script ω ν σ ε β).Steady d :=
  trivial

/-- A discipline without rules makes every script steady. -/
theorem steady_of_forall (hinv : ∀ s, d.inv s) (hstep : ∀ s t, d.step s t)
    (p : Script ω ν σ ε β) : p.Steady d := by
  induction p with
  | done result => trivial
  | act name action next ih =>
      refine ⟨fun o t _ _ => ?_, ih⟩
      apply Tx.wp_of_forall
      · exact fun _ u => ⟨hinv u, hstep t u⟩
      · exact fun _ u => ⟨hinv u, hstep t u⟩

/-- A script with steady actions is safe; nothing is said about its result. -/
theorem Steady.safe (h : p.Steady d) (s : σ) :
    p.Safe d (fun _ _ => True) (fun _ _ => True) s := by
  induction p generalizing s with
  | done result =>
      cases result with
      | ok b => exact fun _ _ _ => trivial
      | error e => exact fun _ _ _ => trivial
  | act name action next ih =>
      intro t ht _ o ho
      apply Tx.wp_mono (h.1 o t ht ho)
      · exact fun x u hu => ⟨hu.1, hu.2, ih _ (h.2 _) u⟩
      · exact fun e u hu => ⟨hu.1, hu.2, ih _ (h.2 _) u⟩

end Steady

end Script

/-! ## Pools of threads -/

/-- A thread: the call that it carries out, and what is left to do. -/
structure Thread (κ ω ν σ ε β : Type) where
  call : κ
  rest : Script ω ν σ ε β

/-- The store, the threads and the answers of those that have ended, oldest first. -/
structure Pool (κ ω ν σ ε β : Type) where
  store : σ
  threads : List (Thread κ ω ν σ ε β)
  answers : List (κ × Except ε β)

/-- What can happen to a pool. -/
inductive PoolEvent (κ ω η : Type) where
  /-- A call arrives. -/
  | enter (call : κ)
  /-- A thread performs its next action. -/
  | run (thread : ℕ) (input : ω)
  /-- A thread that has come to its end gives its answer. -/
  | answer (thread : ℕ)
  /-- All threads are lost. -/
  | crash
  /-- Something outside of the threads changes the store. -/
  | outside (event : η)

namespace Pool

variable {κ ω ν η σ ε β : Type}

/-- A pool without threads. -/
def start (s : σ) : Pool κ ω ν σ ε β :=
  ⟨s, [], []⟩

/-- What happens to a pool whose calls have the given scripts. -/
def next (script : κ → Script ω ν σ ε β) (outside : η → σ → σ) (w : Pool κ ω ν σ ε β) :
    PoolEvent κ ω η → Option (Pool κ ω ν σ ε β)
  | .enter k => some { w with threads := w.threads ++ [⟨k, script k⟩] }
  | .run i o =>
      match w.threads[i]? with
      | some ⟨k, .act _ action next⟩ =>
          some { w with
            store := (action o w.store).2
            threads := w.threads.set i ⟨k, next (action o w.store).1⟩ }
      | _ => none
  | .answer i =>
      match w.threads[i]? with
      | some ⟨k, .done result⟩ =>
          some { w with
            threads := w.threads.eraseIdx i
            answers := w.answers ++ [(k, result)] }
      | _ => none
  | .crash => some { w with threads := [] }
  | .outside e => some { w with store := outside e w.store }

/-- The step relation of a pool. -/
def Step (script : κ → Script ω ν σ ε β) (outside : η → σ → σ) (w : Pool κ ω ν σ ε β)
    (e : PoolEvent κ ω η) (w' : Pool κ ω ν σ ε β) : Prop :=
  w.next script outside e = some w'

/-- The condition under which an event may happen. -/
def Allowed (ok : ν → ω → σ → Prop) (w : Pool κ ω ν σ ε β) : PoolEvent κ ω η → Prop
  | .run i o => ∀ k name γ (action : ω → Tx σ ε γ) next,
      w.threads[i]? = some ⟨k, .act name action next⟩ → ok name o w.store
  | _ => True

/-- Whether an event may happen can be computed. -/
instance decidableAllowed {ok : ν → ω → σ → Prop} [∀ name o s, Decidable (ok name o s)]
    (w : Pool κ ω ν σ ε β) (e : PoolEvent κ ω η) : Decidable (w.Allowed ok e) :=
  match e with
  | .run i o =>
      match h : w.threads[i]? with
      | none => .isTrue fun _ _ _ _ _ hthread => by cases h.symm.trans hthread
      | some ⟨_, .done _⟩ => .isTrue fun _ _ _ _ _ hthread => by cases h.symm.trans hthread
      | some ⟨_, .act name _ _⟩ => decidable_of_iff (ok name o w.store) <| by
          constructor
          · intro hok k name' γ action next hthread
            cases h.symm.trans hthread
            exact hok
          · exact fun hall => hall _ _ _ _ _ h
  | .enter _ => .isTrue trivial
  | .answer _ => .isTrue trivial
  | .crash => .isTrue trivial
  | .outside _ => .isTrue trivial

/-- Where an element is found after another one has been removed. -/
theorem getElem?_eraseIdx_shift {α : Type*} {xs : List α} {i j : ℕ} (hij : ¬j = i) :
    (xs.eraseIdx j)[if j < i then i - 1 else i]? = xs[i]? := by
  rw [List.getElem?_eraseIdx]
  split
  · rename_i hlt
    rw [if_neg (by omega), Nat.sub_add_cancel (by omega)]
  · rw [if_pos (by omega)]

/-- The last element of a list that has been extended. -/
theorem getElem?_append_single {α : Type*} {xs : List α} {x y : α} {i : ℕ}
    (h : (xs ++ [x])[i]? = some y) : xs[i]? = some y ∨ i = xs.length ∧ y = x := by
  by_cases hi : i < xs.length
  · rw [List.getElem?_append_left hi] at h
    exact .inl h
  · rw [List.getElem?_append_right (by omega)] at h
    have hzero : i - xs.length = 0 := by
      by_contra hne
      simp [hne] at h
    rw [hzero, List.getElem?_cons_zero, Option.some.injEq] at h
    exact .inr ⟨by omega, h.symm⟩

/-- The store of a later pool is a later one. -/
def Later (d : Discipline ω ν σ) (w w' : Pool κ ω ν σ ε β) : Prop :=
  d.rel w.store w'.store

/-- All threads are safe, and all answers are as they should be. -/
structure Safe (d : Discipline ω ν σ) (q : κ → β → σ → Prop) (r : κ → ε → σ → Prop)
    (w : Pool κ ω ν σ ε β) : Prop where
  inv : d.inv w.store
  threads : ∀ t ∈ w.threads, t.rest.Safe d (q t.call) (r t.call) w.store
  answers : ∀ a ∈ w.answers, (Script.done a.2 : Script ω ν σ ε β).Safe d (q a.1) (r a.1) w.store

section Runs

variable {d : Discipline ω ν σ} {q : κ → β → σ → Prop} {r : κ → ε → σ → Prop}
  {script : κ → Script ω ν σ ε β} {outside : η → σ → σ} {w w' : Pool κ ω ν σ ε β}

/-- A pool without threads is safe. -/
theorem safe_start {s : σ} (hs : d.inv s) : (start s : Pool κ ω ν σ ε β).Safe d q r :=
  ⟨hs, fun _ ht => (List.not_mem_nil ht).elim, fun _ ha => (List.not_mem_nil ha).elim⟩

/-- A change of the store within the discipline keeps the threads safe. -/
theorem Safe.change {t : σ} (h : w.Safe d q r) (ht : d.inv t) (hrel : d.rel w.store t) :
    Safe d q r { w with store := t } :=
  ⟨ht, fun th hth => (h.threads th hth).later hrel, fun a ha => (h.answers a ha).later hrel⟩

/-- What one event does to a pool of safe threads: it is a step of the discipline, and
the threads stay safe. -/
theorem Safe.next {e : PoolEvent κ ω η} (h : w.Safe d q r)
    (hscript : ∀ k s, d.inv s → (script k).Safe d (q k) (r k) s)
    (houtside : ∀ e s, d.inv s → d.inv (outside e s) ∧ d.step s (outside e s))
    (hstep : Step script outside w e w') (hok : w.Allowed d.ok e) :
    w'.Safe d q r ∧ d.step w.store w'.store := by
  cases e with
  | enter k =>
      cases hstep
      refine ⟨⟨h.inv, fun th hth => ?_, h.answers⟩, d.refl _⟩
      rcases List.mem_append.mp hth with hold | hnew
      · exact h.threads th hold
      · obtain rfl := List.mem_singleton.mp hnew
        exact hscript k _ h.inv
  | run i o =>
      simp only [Step, Pool.next] at hstep
      split at hstep
      · rename_i k γ name action rest hthread
        cases hstep
        have hsafe := h.threads _ (List.mem_of_getElem? hthread) _ h.inv (d.rel_refl _) o
          (hok k name γ action rest hthread)
        have hnew : d.inv (action o w.store).2 ∧ d.step w.store (action o w.store).2 ∧
            (rest (action o w.store).1).Safe d (q k) (r k) (action o w.store).2 := by
          revert hsafe
          unfold Tx.wp
          rcases action o w.store with ⟨_ | x, u⟩
          · exact id
          · exact id
        obtain ⟨hinv, hone, hrest⟩ := hnew
        have hrel := d.sub _ _ hone
        refine ⟨⟨hinv, fun th hth => ?_, (h.change hinv hrel).answers⟩, hone⟩
        rcases List.mem_or_eq_of_mem_set hth with hold | rfl
        · exact (h.threads th hold).later hrel
        · exact hrest
      · cases hstep
  | answer i =>
      simp only [Step, Pool.next] at hstep
      split at hstep
      · rename_i k result hthread
        cases hstep
        refine ⟨⟨h.inv, fun th hth => ?_, fun a ha => ?_⟩, d.refl _⟩
        · exact h.threads th (List.mem_of_mem_eraseIdx hth)
        · rcases List.mem_append.mp ha with hold | hnew
          · exact h.answers a hold
          · obtain rfl := List.mem_singleton.mp hnew
            exact h.threads _ (List.mem_of_getElem? hthread)
      · cases hstep
  | crash =>
      cases hstep
      exact ⟨⟨h.inv, fun _ hth => (List.not_mem_nil hth).elim, h.answers⟩, d.refl _⟩
  | outside e =>
      cases hstep
      obtain ⟨hinv, hone⟩ := houtside e _ h.inv
      exact ⟨h.change hinv (d.sub _ _ hone), hone⟩

/-- Over every run whose events are allowed: the threads stay safe, and the store moves
within the preorder. -/
theorem Safe.run {es : List (PoolEvent κ ω η)} (h : w.Safe d q r)
    (hscript : ∀ k s, d.inv s → (script k).Safe d (q k) (r k) s)
    (houtside : ∀ e s, d.inv s → d.inv (outside e s) ∧ d.step s (outside e s))
    (hrun : Run (Guarded (Step script outside) (Allowed d.ok)) w es w') :
    w'.Safe d q r ∧ w.Later d w' := by
  have hstep : ∀ a e b, a.Safe d q r → Guarded (Step script outside) (Allowed d.ok) a e b →
      b.Safe d q r ∧ a.Later d b := by
    intro a e b ha hab
    obtain ⟨hsafe, hone⟩ := ha.next hscript houtside hab.1 hab.2
    exact ⟨hsafe, d.sub _ _ hone⟩
  have hrel : w.Later d w' :=
    hrun.related h (fun a e b ha hab => (hstep a e b ha hab).1) (fun _ => d.rel_refl _)
      (fun _ _ _ => d.trans _ _ _) fun a e b ha hab => (hstep a e b ha hab).2
  exact ⟨hrun.invariant h fun a e b ha hab => (hstep a e b ha hab).1, hrel⟩

/-- Each thread is steady for the discipline of its call. -/
def Kept (kind : κ → Discipline ω ν σ) (w : Pool κ ω ν σ ε β) : Prop :=
  ∀ t ∈ w.threads, t.rest.Steady (kind t.call)

/-- One event keeps the disciplines. -/
theorem Kept.next {kind : κ → Discipline ω ν σ} {e : PoolEvent κ ω η} (h : w.Kept kind)
    (hscript : ∀ k, (script k).Steady (kind k)) (hstep : Step script outside w e w') :
    w'.Kept kind := by
  cases e with
  | enter k =>
      cases hstep
      intro t ht
      rcases List.mem_append.mp ht with hold | hnew
      · exact h t hold
      · obtain rfl := List.mem_singleton.mp hnew
        exact hscript k
  | run i o =>
      simp only [Step, Pool.next] at hstep
      split at hstep
      · rename_i k γ name action rest hthread
        cases hstep
        intro t ht
        rcases List.mem_or_eq_of_mem_set ht with hold | rfl
        · exact h t hold
        · exact (h _ (List.mem_of_getElem? hthread)).2 _
      · cases hstep
  | answer i =>
      simp only [Step, Pool.next] at hstep
      split at hstep
      · cases hstep
        exact fun t ht => h t (List.mem_of_mem_eraseIdx ht)
      · cases hstep
  | crash =>
      cases hstep
      exact fun _ ht => (List.not_mem_nil ht).elim
  | outside e =>
      cases hstep
      exact h

/-- An action is a step of the discipline of its call. -/
theorem Kept.step {kind : κ → Discipline ω ν σ} {i : ℕ} {o : ω} {t : Thread κ ω ν σ ε β}
    (h : w.Kept kind) (ht : w.threads[i]? = some t)
    (hinv : (kind t.call).inv w.store) (hok : ∀ name, (kind t.call).ok name o w.store)
    (hstep : Step script outside w (.run i o) w') :
    (kind t.call).step w.store w'.store := by
  simp only [Step, Pool.next] at hstep
  split at hstep
  · rename_i k γ name action rest hthread
    cases hstep
    rw [ht] at hthread
    cases hthread
    have hwp := (h _ (List.mem_of_getElem? ht)).1 o w.store hinv (hok name)
    revert hwp
    unfold Tx.wp
    rcases action o w.store with ⟨_ | x, u⟩
    · exact fun hu => hu.2
    · exact fun hu => hu.2
  · cases hstep

end Runs

end Pool

end Library
end DarkXray
