import Mathlib.Logic.Basic

/-!
# Transactions over a store

A procedure over a store either returns or raises, and in both cases it leaves a
final store: an exception by itself undoes nothing.  Only {lit}`transaction`
rolls back, by putting the store it started from in place of the one its failed
body left.  A transaction inside another one behaves as a savepoint.

Main results:

- Theorem {lit}`Tx.bind_ok_iff` and the inversion rules next to it: what a
  procedure that returned has checked and written.
- Theorem {lit}`Tx.Atomic.transaction`: a transaction that raises changes nothing.
- Theorem {lit}`Tx.Atomic.bind`: checks in front of it do not change that.
-/

namespace DarkXray
namespace Library

/-! ## Pure checks -/

section Checks

variable {ε α β : Type}

/-- Raise unless a condition holds, without a store. -/
def ensure (p : Prop) [Decidable p] (e : ε) : Except ε Unit :=
  if p then .ok () else .error e

/-- A sequence of checks passes exactly when each of them passes. -/
theorem except_bind_ok_iff {x : Except ε α} {f : α → Except ε β} {b : β} :
    (x >>= f) = .ok b ↔ ∃ a, x = .ok a ∧ f a = .ok b := by
  cases x with
  | error e => simp [bind, Except.bind]
  | ok a => simp [bind, Except.bind]

/-- A sequence of checks fails where one of them fails. -/
theorem except_bind_error_iff {x : Except ε α} {f : α → Except ε β} {e : ε} :
    (x >>= f) = .error e ↔ x = .error e ∨ ∃ a, x = .ok a ∧ f a = .error e := by
  cases x with
  | error e' => simp [bind, Except.bind]
  | ok a => simp [bind, Except.bind]

/-- A check fails exactly if the condition does. -/
theorem ensure_error_iff {p : Prop} [Decidable p] {e e' : ε} :
    ensure p e = .error e' ↔ ¬p ∧ e = e' := by
  unfold ensure
  split <;> rename_i h
  · simp [h]
  · simp [h]

/-- A value is returned as it is. -/
theorem except_pure_ok_iff {a b : α} : (pure a : Except ε α) = .ok b ↔ b = a := by
  simp [pure, Except.pure, eq_comm]

/-- A check passes exactly if the condition holds. -/
theorem ensure_ok_iff {p : Prop} [Decidable p] {e : ε} {u : Unit} :
    ensure p e = .ok u ↔ p := by
  unfold ensure
  split <;> rename_i h
  · simp [h]
  · simp [h]

end Checks

/-! ## Procedures -/

/-- Procedures over a store {lit}`σ` that return {lit}`α` or raise {lit}`ε`. -/
def Tx (σ ε α : Type) : Type :=
  σ → Except ε α × σ

namespace Tx

variable {σ ε α β : Type}

instance : Monad (Tx σ ε) where
  pure a := fun s => (.ok a, s)
  bind m f := fun s =>
    match m s with
    | (.ok a, t) => f a t
    | (.error e, t) => (.error e, t)

/-- Raise an exception; what was written before stays written. -/
def raise (e : ε) : Tx σ ε α :=
  fun s => (.error e, s)

/-- Read the store. -/
def read (f : σ → α) : Tx σ ε α :=
  fun s => (.ok (f s), s)

/-- Write the store. -/
def write (f : σ → σ) : Tx σ ε Unit :=
  fun s => (.ok (), f s)

/-- Raise unless a condition holds. -/
def require (p : Prop) [Decidable p] (e : ε) : Tx σ ε Unit :=
  if p then pure () else raise e

/-- Run a procedure if a condition holds. -/
def when (p : Prop) [Decidable p] (m : Tx σ ε Unit) : Tx σ ε Unit :=
  if p then m else pure ()

/-- Use the value of an option, or raise. -/
def demand (o : Option α) (e : ε) : Tx σ ε α :=
  match o with
  | some a => pure a
  | none => raise e

/-- The outcome of a pure check. -/
def ofExcept (x : Except ε α) : Tx σ ε α :=
  fun s => (x, s)

/-- Run a procedure and roll its writes back if it raises. -/
def transaction (m : Tx σ ε α) : Tx σ ε α :=
  fun s =>
    match m s with
    | (.ok a, t) => (.ok a, t)
    | (.error e, _) => (.error e, s)

/-- Run a procedure on a part of the store. -/
def within {τ : Type} (get : σ → τ) (set : τ → σ → σ) (m : Tx τ ε α) : Tx σ ε α :=
  fun s => ((m (get s)).1, set (m (get s)).2 s)

/-- Run a procedure that raises exceptions of another kind. -/
def mapError {ε' : Type} (f : ε → ε') (m : Tx σ ε α) : Tx σ ε' α :=
  fun s =>
    match m s with
    | (.ok a, t) => (.ok a, t)
    | (.error e, t) => (.error (f e), t)

/-- Run a procedure and continue with a handler for the exceptions it names. -/
def handle (m : Tx σ ε α) (h : ε → Option (Tx σ ε α)) : Tx σ ε α :=
  fun s =>
    match m s with
    | (.ok a, t) => (.ok a, t)
    | (.error e, t) =>
        match h e with
        | some m' => m' t
        | none => (.error e, t)

/-! ## What a procedure that returned has done -/

/-- A value leaves the store alone. -/
theorem pure_apply (a : α) (s : σ) : (pure a : Tx σ ε α) s = (.ok a, s) :=
  rfl

/-- A sequence runs the second part where the first returns. -/
theorem bind_apply (m : Tx σ ε α) (f : α → Tx σ ε β) (s : σ) :
    (m >>= f) s =
      match m s with
      | (.ok a, t) => f a t
      | (.error e, t) => (.error e, t) :=
  rfl

/-- A read passes on what it has seen. -/
@[simp]
theorem read_bind (f : σ → α) (k : α → Tx σ ε β) (s : σ) : (read f >>= k) s = k (f s) s :=
  rfl

/-- A write passes on the new store. -/
@[simp]
theorem write_bind (f : σ → σ) (k : Unit → Tx σ ε β) (s : σ) : (write f >>= k) s = k () (f s) :=
  rfl

/-- A value is returned from the same store. -/
theorem pure_ok_iff {a b : α} {s t : σ} :
    (pure a : Tx σ ε α) s = (.ok b, t) ↔ a = b ∧ s = t := by
  rw [pure_apply, Prod.mk.injEq, Except.ok.injEq]

/-- A write returns the new store. -/
theorem write_ok_iff {f : σ → σ} {b : Unit} {s t : σ} :
    (write f : Tx σ ε Unit) s = (.ok b, t) ↔ f s = t := by
  rw [write, Prod.mk.injEq]
  constructor
  · exact fun h => h.2
  · exact fun h => ⟨rfl, h⟩

/-- An exception returns nothing. -/
@[simp]
theorem raise_ok_iff {e : ε} {b : α} {s t : σ} :
    (raise e : Tx σ ε α) s = (.ok b, t) ↔ False := by
  simp [raise]

/-- A sequence returns exactly when both parts return, one after the other. -/
theorem bind_ok_iff {m : Tx σ ε α} {f : α → Tx σ ε β} {s u : σ} {b : β} :
    (m >>= f) s = (.ok b, u) ↔ ∃ a t, m s = (.ok a, t) ∧ f a t = (.ok b, u) := by
  rw [bind_apply]
  rcases m s with ⟨_ | a, t⟩
  · simp
  · simp only [Prod.mk.injEq, Except.ok.injEq]
    constructor
    · exact fun h => ⟨a, t, ⟨rfl, rfl⟩, h⟩
    · rintro ⟨_, _, ⟨rfl, rfl⟩, h⟩
      exact h

/-- A choice returns exactly when the branch it takes returns. -/
theorem ite_ok_iff {p : Prop} [Decidable p] {m m' : Tx σ ε α} {s t : σ} {a : α} :
    (if p then m else m') s = (.ok a, t) ↔
      (p ∧ m s = (.ok a, t)) ∨ (¬p ∧ m' s = (.ok a, t)) := by
  split <;> simp_all

/-- A check returns exactly if the condition holds. -/
theorem require_ok_iff {p : Prop} [Decidable p] {e : ε} {b : Unit} {s t : σ} :
    (require p e : Tx σ ε Unit) s = (.ok b, t) ↔ p ∧ s = t := by
  rw [require, ite_ok_iff, pure_ok_iff]
  simp

/-- A result is returned from the same store. -/
theorem ofExcept_ok_iff {x : Except ε α} {b : α} {s t : σ} :
    (ofExcept x : Tx σ ε α) s = (.ok b, t) ↔ x = .ok b ∧ s = t := by
  rw [ofExcept, Prod.mk.injEq]

/-- A conditional returns what its body does, or nothing has happened. -/
theorem when_ok_iff {p : Prop} [Decidable p] {m : Tx σ ε Unit} {s t : σ} {u : Unit} :
    when p m s = (.ok u, t) ↔ (p ∧ m s = (.ok u, t)) ∨ (¬p ∧ s = t) := by
  rw [when, ite_ok_iff, pure_ok_iff]
  simp

/-- What follows a check runs exactly if the condition holds. -/
theorem require_bind_iff {p : Prop} [Decidable p] {e : ε} {k : Unit → Tx σ ε β} {s t : σ}
    {b : β} : (require p e >>= k) s = (.ok b, t) ↔ p ∧ k () s = (.ok b, t) := by
  simp only [bind_ok_iff, require_ok_iff]
  constructor
  · rintro ⟨_, _, ⟨hp, rfl⟩, h⟩
    exact ⟨hp, h⟩
  · rintro ⟨hp, h⟩
    exact ⟨(), s, ⟨hp, rfl⟩, h⟩

/-- What follows a result runs exactly if there is one. -/
theorem ofExcept_bind_iff {x : Except ε α} {k : α → Tx σ ε β} {s t : σ} {b : β} :
    (ofExcept x >>= k) s = (.ok b, t) ↔ ∃ a, x = .ok a ∧ k a s = (.ok b, t) := by
  simp only [bind_ok_iff, ofExcept_ok_iff]
  constructor
  · rintro ⟨a, _, ⟨hx, rfl⟩, h⟩
    exact ⟨a, hx, h⟩
  · rintro ⟨a, hx, h⟩
    exact ⟨a, s, ⟨hx, rfl⟩, h⟩

/-- What follows a demand runs exactly if the value is there. -/
theorem demand_bind_iff {o : Option α} {e : ε} {k : α → Tx σ ε β} {s t : σ} {b : β} :
    (demand o e >>= k) s = (.ok b, t) ↔ ∃ a, o = some a ∧ k a s = (.ok b, t) := by
  have hdemand : (demand o e : Tx σ ε α) = ofExcept (o.elim (.error e) .ok) := by
    cases o <;> rfl
  rw [hdemand, ofExcept_bind_iff]
  cases o with
  | none => simp
  | some a => simp

/-- A procedure run on a part of the store returns exactly when it returns on the part, which
then replaces the old one. -/
theorem within_ok_iff {τ : Type} {get : σ → τ} {set : τ → σ → σ} {m : Tx τ ε α} {a : α}
    {s t : σ} : within get set m s = (.ok a, t) ↔ ∃ p, m (get s) = (.ok a, p) ∧ t = set p s := by
  rw [within, Prod.mk.injEq]
  constructor
  · rintro ⟨hresult, rfl⟩
    exact ⟨(m (get s)).2, Prod.ext hresult rfl, rfl⟩
  · rintro ⟨p, hm, rfl⟩
    rw [hm]
    exact ⟨rfl, rfl⟩

/-- A transaction that returns did what its body did. -/
theorem transaction_ok_iff {m : Tx σ ε α} {a : α} {s t : σ} :
    transaction m s = (.ok a, t) ↔ m s = (.ok a, t) := by
  unfold transaction
  rcases m s with ⟨_ | b, u⟩
  · simp
  · simp

/-! ## Procedures that raise without an effect -/

/-- The procedure never changes the store. -/
def ReadOnly (m : Tx σ ε α) : Prop :=
  ∀ s, (m s).2 = s

/-- If the procedure raises, it leaves the store as it found it. -/
def Atomic (m : Tx σ ε α) : Prop :=
  ∀ s e t, m s = (.error e, t) → t = s

/-- A check changes nothing. -/
theorem ReadOnly.require (p : Prop) [Decidable p] (e : ε) :
    ReadOnly (Tx.require p e : Tx σ ε Unit) := by
  intro s
  unfold Tx.require
  split
  · rfl
  · rfl

/-- A result changes nothing. -/
theorem ReadOnly.ofExcept (x : Except ε α) : ReadOnly (Tx.ofExcept x : Tx σ ε α) :=
  fun _ => rfl

/-- What changes nothing is atomic. -/
theorem ReadOnly.atomic {m : Tx σ ε α} (h : ReadOnly m) : Atomic m := by
  intro s e t hm
  rw [← h s, hm]

namespace Atomic

/-- A transaction that raises changes nothing. -/
theorem transaction (m : Tx σ ε α) : Atomic (Tx.transaction m) := by
  intro s e t h
  unfold Tx.transaction at h
  rcases hm : m s with ⟨_ | b, u⟩
  · simp only [hm, Prod.mk.injEq] at h
    exact h.2.symm
  · simp [hm] at h

/-- An exception is atomic. -/
theorem raise (e : ε) : Atomic (Tx.raise e : Tx σ ε α) := by
  rintro s _ t ⟨⟩
  rfl

/-- Dropping the result of an atomic procedure keeps it atomic. -/
theorem discard {m : Tx σ ε α} (h : Atomic m) : Atomic (m >>= fun _ => pure () : Tx σ ε Unit) := by
  intro s e t hm
  rw [bind_apply] at hm
  rcases hms : m s with ⟨_ | a, u⟩
  · simp only [hms, Prod.mk.injEq] at hm
    rw [← hm.2]
    exact h s _ u hms
  · simp [hms, pure_apply] at hm

/-- Checks in front of an atomic procedure keep it atomic. -/
theorem bind {m : Tx σ ε α} {f : α → Tx σ ε β} (hm : ReadOnly m) (hf : ∀ a, Atomic (f a)) :
    Atomic (m >>= f) := by
  intro s e t h
  have hs := hm s
  rw [bind_apply] at h
  rcases hms : m s with ⟨_ | a, u⟩
  · rw [hms] at h hs
    simp only [Prod.mk.injEq] at h
    rw [← h.2]
    exact hs
  · rw [hms] at h hs
    exact (hf a u e t h).trans hs

end Atomic

end Tx

end Library
end DarkXray
