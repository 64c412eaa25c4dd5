import Mathlib.Data.Nat.Notation

/-!
# Interruptible procedures

A procedure performs actions one at a time on a state that it shares with others:
between two of its actions anything may happen.  It is therefore not a function
of a state but a tree: an action, and for each reply to it the rest.

Main results:

- Theorem {lit}`Proc.All.bind`: a condition on all actions of a procedure is a
  condition on the actions of its parts.
- Theorem {lit}`Proc.Safe.bind`: the rule of sequence for conditions on the history.
- Theorem {lit}`Proc.Safe.reaches`: what is safe stays so, however far it is performed.
- Theorem {lit}`Proc.play_reaches`: an environment that replies as it may leads to states that
  are reached.
-/

namespace DarkXray
namespace Library

/-- Procedures with actions {lit}`α`, replies {lit}`ρ` and results {lit}`β`. -/
inductive Proc (α ρ β : Type) where
  | done (result : β)
  | act (action : α) (next : ρ → Proc α ρ β)

namespace Proc

variable {α ρ β γ : Type}

/-- Go on with the result of a procedure. -/
def bind : Proc α ρ β → (β → Proc α ρ γ) → Proc α ρ γ
  | done result, f => f result
  | act action next, f => act action fun reply => (next reply).bind f

instance : Monad (Proc α ρ) where
  pure := done
  bind := bind

/-- One action. -/
def perform (action : α) : Proc α ρ ρ :=
  act action done

/-- The result of a finished procedure. -/
def result? : Proc α ρ β → Option β
  | done result => some result
  | act _ _ => none

/-- The next action of a procedure. -/
def action? : Proc α ρ β → Option α
  | done _ => none
  | act action _ => some action

/-- A procedure that acts next. -/
theorem exists_of_action? {p : Proc α ρ β} {action : α} (h : p.action? = some action) :
    ∃ next, p = act action next := by
  cases p with
  | done result => cases h
  | act action' next =>
      cases h
      exact ⟨next, rfl⟩

/-- Perform a procedure without an interruption. -/
def eval {σ : Type} (perform : σ → α → ρ × σ) : Proc α ρ β → σ → β × σ
  | done result, s => (result, s)
  | act action next, s => (next (perform s action).1).eval perform (perform s action).2

/-- Every action that a procedure may come to perform satisfies a condition. -/
def All (p : α → Prop) : Proc α ρ β → Prop
  | done _ => True
  | act action next => p action ∧ ∀ reply, (next reply).All p

/-- Go on with another procedure unless the first one raises. -/
def andThen {ε : Type} (first : Proc α ρ (Option ε)) (second : Proc α ρ (Option ε)) :
    Proc α ρ (Option ε) :=
  first.bind fun
    | some e => done (some e)
    | none => second

/-- Without interruptions, the parts of a procedure run one after the other. -/
theorem eval_bind {σ : Type} (perform : σ → α → ρ × σ) (first : Proc α ρ β)
    (f : β → Proc α ρ γ) (s : σ) :
    (first.bind f).eval perform s = (f (first.eval perform s).1).eval perform
      (first.eval perform s).2 := by
  induction first generalizing s with
  | done result => rfl
  | act action next ih => exact ih _ _

section All

variable {p : α → Prop}

/-- The rule of sequence. -/
theorem All.bind {first : Proc α ρ β} {f : β → Proc α ρ γ} (hfirst : first.All p)
    (hf : ∀ b, (f b).All p) : (first.bind f).All p := by
  induction first with
  | done result => exact hf result
  | act action next ih => exact ⟨hfirst.1, fun reply => ih reply (hfirst.2 reply)⟩

/-- The rule of an action. -/
theorem All.perform {action : α} (h : p action) : (perform action : Proc α ρ ρ).All p :=
  ⟨h, fun _ => trivial⟩

/-- The rule of a sequence that stops at the first error. -/
theorem All.andThen {ε : Type} {first second : Proc α ρ (Option ε)} (hfirst : first.All p)
    (hsecond : second.All p) : (first.andThen second).All p :=
  hfirst.bind fun
    | some _ => trivial
    | none => hsecond

end All

end Proc

/-! ## Histories -/

/-- A monitor follows the actions of a procedure and the replies to them: it says which
action is allowed after a history, which replies are possible, and what it remembers. -/
structure Monitor (α ρ γ : Type) where
  allowed : γ → α → Prop
  possible : γ → α → ρ → Prop
  after : γ → α → ρ → γ

namespace Proc

section Monitored

variable {α ρ β δ γ : Type} {m : Monitor α ρ γ}

/-- Every action that a procedure may come to perform is allowed after the history that leads
to it, and its result fits the history. -/
def Safe (m : Monitor α ρ γ) (fits : γ → β → Prop) : Proc α ρ β → γ → Prop
  | done result, g => fits g result
  | act action next, g => m.allowed g action ∧
      ∀ reply, m.possible g action reply → (next reply).Safe m fits (m.after g action reply)

/-- The rule of consequence. -/
theorem Safe.mono {fits fits' : γ → β → Prop} {p : Proc α ρ β} {g : γ} (h : p.Safe m fits g)
    (himp : ∀ g b, fits g b → fits' g b) : p.Safe m fits' g := by
  induction p generalizing g with
  | done result => exact himp g result h
  | act action next ih => exact ⟨h.1, fun reply hreply => ih reply (h.2 reply hreply)⟩

/-- The rule of sequence. -/
theorem Safe.bind {fits : γ → β → Prop} {fits' : γ → δ → Prop} {p : Proc α ρ β}
    {f : β → Proc α ρ δ} {g : γ} (h : p.Safe m fits g)
    (hf : ∀ g b, fits g b → (f b).Safe m fits' g) : (p.bind f).Safe m fits' g := by
  induction p generalizing g with
  | done result => exact hf g result h
  | act action next ih => exact ⟨h.1, fun reply hreply => ih reply (h.2 reply hreply)⟩

/-- Perform some actions of a procedure. -/
inductive Reaches (m : Monitor α ρ γ) (p : Proc α ρ β) (g : γ) : Proc α ρ β → γ → Prop
  | start : Reaches m p g p g
  | perform {action : α} {next : ρ → Proc α ρ β} {g' : γ} {reply : ρ} :
      Reaches m p g (act action next) g' → m.possible g' action reply →
        Reaches m p g (next reply) (m.after g' action reply)

/-- What is safe stays so, however far it is performed. -/
theorem Safe.reaches {fits : γ → β → Prop} {p q : Proc α ρ β} {g g' : γ}
    (h : p.Safe m fits g) (hreach : Reaches m p g q g') : q.Safe m fits g' := by
  induction hreach with
  | start => exact h
  | perform _ hreply ih => exact ih.2 _ hreply

/-- Perform some actions of a procedure against an environment that replies to them. -/
def play (m : Monitor α ρ γ) (environment : γ → α → ρ) :
    ℕ → Proc α ρ β → γ → Proc α ρ β × γ
  | n + 1, act action next, g =>
      (next (environment g action)).play m environment n (m.after g action (environment g action))
  | _, p, g => (p, g)

/-- Performing actions before a procedure is reached. -/
theorem Reaches.head {p q : Proc α ρ β} {action : α} {next : ρ → Proc α ρ β} {reply : ρ}
    {g g' : γ} (hp : p = act action next) (hreply : m.possible g action reply)
    (h : Reaches m (next reply) (m.after g action reply) q g') : Reaches m p g q g' := by
  induction h with
  | start =>
      subst hp
      exact Reaches.start.perform hreply
  | perform _ hpossible ih => exact ih.perform hpossible

/-- What is played against possible replies is reached. -/
theorem play_reaches {environment : γ → α → ρ}
    (henvironment : ∀ g action, m.possible g action (environment g action)) (n : ℕ)
    (p : Proc α ρ β) (g : γ) :
    Reaches m p g (p.play m environment n g).1 (p.play m environment n g).2 := by
  induction n generalizing p g with
  | zero => cases p <;> exact .start
  | succ n ih =>
      cases p with
      | done result => exact .start
      | act action next => exact .head rfl (henvironment g action) (ih _ _)

end Monitored

end Proc
end Library
end DarkXray
