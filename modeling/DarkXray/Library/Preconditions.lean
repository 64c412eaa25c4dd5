import DarkXray.Library.Transactions

/-!
# Weakest preconditions of transactions

What must hold of a store so that a procedure ends as it should: one condition for
the way it returns, one for the way it raises.  Each construct of a procedure has a
rule that turns its weakest precondition into those of its parts.

Main results:

- Theorems {lit}`Tx.wp_bind`, {lit}`Tx.wp_transaction` and {lit}`Tx.wp_handle`: the
  rules of the constructs that sequence, roll back and catch.
- Theorem {lit}`Tx.wp_mono`: a procedure that does more than is asked for does what is
  asked for.
-/

namespace DarkXray
namespace Library
namespace Tx

variable {σ ε α β : Type}

/-- The procedure returns into {lit}`q` or raises into {lit}`r`. -/
def wp (m : Tx σ ε α) (q : α → σ → Prop) (r : ε → σ → Prop) (s : σ) : Prop :=
  match m s with
  | (.ok a, t) => q a t
  | (.error e, t) => r e t

section Rules

variable {m : Tx σ ε α} {q q' : α → σ → Prop} {r r' : ε → σ → Prop} {s : σ}

/-- The rule of consequence. -/
theorem wp_mono (h : wp m q r s) (hq : ∀ a t, q a t → q' a t) (hr : ∀ e t, r e t → r' e t) :
    wp m q' r' s := by
  revert h
  unfold wp
  rcases m s with ⟨_ | a, t⟩
  · exact hr _ _
  · exact hq _ _

/-- What holds however the procedure ends. -/
theorem wp_of_forall (hq : ∀ a t, q a t) (hr : ∀ e t, r e t) : wp m q r s := by
  unfold wp
  rcases m s with ⟨_ | a, t⟩
  · exact hr _ _
  · exact hq _ _

/-- What holds after a procedure in two ways holds together. -/
theorem wp_and (h : wp m q r s) (h' : wp m q' r' s) :
    wp m (fun a t => q a t ∧ q' a t) (fun e t => r e t ∧ r' e t) s := by
  revert h h'
  unfold wp
  rcases m s with ⟨_ | a, t⟩
  · exact And.intro
  · exact And.intro

/-- A procedure that returns ends in its postcondition. -/
theorem wp_ok {a : α} {t : σ} (h : wp m q r s) (hm : m s = (.ok a, t)) : q a t := by
  simpa only [wp, hm] using h

/-- A procedure that raises ends in its exceptional postcondition. -/
theorem wp_error {e : ε} {t : σ} (h : wp m q r s) (hm : m s = (.error e, t)) : r e t := by
  simpa only [wp, hm] using h

/-- The rule of a value. -/
@[simp]
theorem wp_pure (a : α) : wp (pure a : Tx σ ε α) q r s ↔ q a s :=
  Iff.rfl

/-- The rule of sequence. -/
@[simp]
theorem wp_bind (f : α → Tx σ ε β) (q : β → σ → Prop) :
    wp (m >>= f) q r s ↔ wp m (fun a t => wp (f a) q r t) r s := by
  unfold wp
  rw [bind_apply]
  rcases m s with ⟨_ | a, t⟩
  · exact Iff.rfl
  · exact Iff.rfl

/-- The rule of a read. -/
@[simp]
theorem wp_read (f : σ → α) : wp (read f : Tx σ ε α) q r s ↔ q (f s) s :=
  Iff.rfl

/-- The rule of a write. -/
@[simp]
theorem wp_write (f : σ → σ) (q : Unit → σ → Prop) :
    wp (write f : Tx σ ε Unit) q r s ↔ q () (f s) :=
  Iff.rfl

/-- The rule of an exception. -/
@[simp]
theorem wp_raise (e : ε) : wp (raise e : Tx σ ε α) q r s ↔ r e s :=
  Iff.rfl

/-- The rule of a result. -/
@[simp]
theorem wp_ofExcept (x : Except ε α) :
    wp (ofExcept x : Tx σ ε α) q r s ↔ (∀ a, x = .ok a → q a s) ∧ ∀ e, x = .error e → r e s := by
  cases x <;> simp [wp, ofExcept]

/-- The rule of a check. -/
@[simp]
theorem wp_require (p : Prop) [Decidable p] (e : ε) (q : Unit → σ → Prop) :
    wp (require p e : Tx σ ε Unit) q r s ↔ (p → q () s) ∧ (¬p → r e s) := by
  unfold require
  split <;> rename_i hp
  · simp [hp]
  · simp [hp]

/-- The rule of a value that must be there. -/
@[simp]
theorem wp_demand (o : Option α) (e : ε) :
    wp (demand o e : Tx σ ε α) q r s ↔ (∀ a, o = some a → q a s) ∧ (o = none → r e s) := by
  cases o <;> simp [demand]

/-- The rule of a conditional. -/
@[simp]
theorem wp_when (p : Prop) [Decidable p] (m : Tx σ ε Unit) (q : Unit → σ → Prop) :
    wp (when p m) q r s ↔ (p → wp m q r s) ∧ (¬p → q () s) := by
  unfold when
  split <;> rename_i hp
  · simp [hp]
  · simp [hp]

/-- A transaction that raises leaves the store it started from. -/
@[simp]
theorem wp_transaction :
    wp (transaction m) q r s ↔ wp m q (fun e _ => r e s) s := by
  unfold wp transaction
  rcases m s with ⟨_ | a, t⟩
  · exact Iff.rfl
  · exact Iff.rfl

/-- A handler starts from the store that the exception has left. -/
@[simp]
theorem wp_handle (h : ε → Option (Tx σ ε α)) :
    wp (handle m h) q r s ↔
      wp m q (fun e t => (h e).elim (r e t) fun m' => wp m' q r t) s := by
  unfold wp handle
  rcases m s with ⟨e | a, t⟩
  · dsimp only
    cases h e with
    | none => exact Iff.rfl
    | some m' => exact Iff.rfl
  · exact Iff.rfl

/-- A procedure on a part of the store leaves the other parts. -/
@[simp]
theorem wp_within {τ : Type} (get : σ → τ) (set : τ → σ → σ) (m : Tx τ ε α) :
    wp (within get set m) q r s ↔
      wp m (fun a t => q a (set t s)) (fun e t => r e (set t s)) (get s) := by
  unfold wp within
  rcases m (get s) with ⟨_ | a, t⟩
  · exact Iff.rfl
  · exact Iff.rfl

/-- The rule of a translated exception. -/
@[simp]
theorem wp_mapError {ε' : Type} (f : ε → ε') (m : Tx σ ε α) (r : ε' → σ → Prop) :
    wp (mapError f m) q r s ↔ wp m q (fun e t => r (f e) t) s := by
  unfold wp mapError
  rcases m s with ⟨_ | a, t⟩
  · exact Iff.rfl
  · exact Iff.rfl

/-- The loop rule: what each round keeps, all rounds keep. -/
theorem wp_forM {γ : Type} {body : γ → Tx σ ε Unit} {inv : σ → Prop} {xs : List γ}
    (hs : inv s) (hbody : ∀ x ∈ xs, ∀ t, inv t → wp (body x) (fun _ u => inv u) r t) :
    wp (xs.forM body) (fun _ t => inv t) r s := by
  induction xs generalizing s with
  | nil => exact hs
  | cons x xs ih =>
      change wp (body x >>= fun _ => xs.forM body) _ _ _
      rw [wp_bind]
      apply wp_mono (hbody x List.mem_cons_self s hs)
      · intro _ t ht
        exact ih ht fun y hy => hbody y (List.mem_cons_of_mem x hy)
      · exact fun _ _ h => h

end Rules

end Tx
end Library
end DarkXray
