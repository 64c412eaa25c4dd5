import Mathlib.Data.Int.Notation
import Mathlib.Data.Nat.Notation
import DarkXray.Library.Transactions

/-!
# Policy values, actors and exceptions

The vocabulary that every operation of the policy store shares: dynamically
typed arguments, the validated integers, the names, the actors with their
permission scopes, and the exceptions.

Main results:

- Theorem {lit}`integer_ok_iff`: what a validated integer is.
- Theorem {lit}`Actor.can_owner`: the owner role passes every permission check.
-/

namespace DarkXray
namespace Policy

open Library

/-- Exceptions of the policy store, of its database and of the engine. -/
inductive Failure where
  /-- {lit}`PolicyError` with its message. -/
  | policyError (message : String)
  /-- {lit}`CoreError` with its message; no {lit}`PolicyError`. -/
  | coreError (message : String)
  /-- {lit}`PermissionDenied`, a subclass of {lit}`PolicyError`. -/
  | permissionDenied
  /-- A primary key or unique constraint is violated. -/
  | integrityError
  /-- An aggregate leaves the range of a stored integer. -/
  | integerOverflow
  /-- The database cannot carry a statement out. -/
  | databaseError
deriving DecidableEq, Repr

/-- The exceptions that {lit}`except PolicyError` catches. -/
def Failure.isPolicyError : Failure → Bool
  | .policyError _ => true
  | .permissionDenied => true
  | .coreError _ => false
  | .integrityError => false
  | .integerOverflow => false
  | .databaseError => false

/-- The text of an exception. -/
def Failure.message : Failure → String
  | .policyError message => message
  | .coreError message => message
  | .permissionDenied => "This actor is not authorized for that resource and owner"
  | .integrityError => ""
  | .integerOverflow => ""
  | .databaseError => ""

/-- A dynamically typed argument; {lit}`other` stands for floats, lists and
everything else that no check accepts. -/
inductive Value where
  | none
  | bool (b : Bool)
  | int (n : ℤ)
  | str (s : String)
  | other
deriving DecidableEq, Repr

/-- {lit}`MAX_INT`, the largest stored integer. -/
def maxInt : ℤ :=
  9223372036854775807

/-- {lit}`integer(value, minimum, maximum)`: booleans are not integers here. -/
def integer (value : Value) (minimum : ℤ := 0) (maximum : ℤ := maxInt) : Except Failure ℤ :=
  match value with
  | .int n =>
      if minimum ≤ n ∧ n ≤ maximum then .ok n
      else .error (.policyError s!"Expected an integer in [{minimum}, {maximum}]")
  | _ => .error (.policyError s!"Expected an integer in [{minimum}, {maximum}]")

/-- Characters that {lit}`NAME_RE` admits. -/
def nameChar (c : Char) : Bool :=
  c.isAlphanum || c ∈ ['_', '.', '@', '+', '-']

/-- {lit}`NAME_RE.fullmatch`. -/
def nameRe (s : String) : Bool :=
  1 ≤ s.length && s.length ≤ 128 && s.toList.all nameChar

/-- Texts of a number of lower-case hexadecimal digits. -/
def hexDigits (n : ℕ) (s : String) : Bool :=
  s.length = n && s.toList.all fun c => c.isDigit || ('a' ≤ c && c ≤ 'f')

/-- Roles of the panel accounts. -/
inductive Role where
  | owner
  | reseller
  | readonly
deriving DecidableEq, Repr

/-- Scope of one permission. -/
inductive Scope where
  | all
  | own
  | none
deriving DecidableEq, Repr

/-- The account on whose behalf an operation runs. -/
structure Actor where
  id : String
  role : Role
  permissions : List (String × Scope)
deriving DecidableEq, Repr

/-- {lit}`Actor.can` for a resource that belongs to {lit}`owner`. -/
def Actor.can (a : Actor) (resource action owner : String) : Bool :=
  match a.role with
  | .owner => true
  | _ =>
      match (a.permissions.lookup (resource ++ "." ++ action)).getD .none with
      | .all => true
      | .own => owner = a.id
      | .none => false

/-- The class of an exception. -/
def Failure.name : Failure → String
  | .policyError _ => "PolicyError"
  | .coreError _ => "CoreError"
  | .permissionDenied => "PermissionDenied"
  | .integrityError => "IntegrityError"
  | .integerOverflow => "OperationalError"
  | .databaseError => "OperationalError"

variable {σ : Type}

/-- {lit}`Actor.require`. -/
def Actor.require (a : Actor) (resource action owner : String) : Tx σ Failure Unit :=
  Tx.require (a.can resource action owner = true) .permissionDenied

/-- Raise {lit}`PolicyError` unless a condition holds. -/
def demandPolicy (p : Prop) [Decidable p] (message : String) : Tx σ Failure Unit :=
  Tx.require p (.policyError message)

/-! ## What the checks guarantee -/

/-- A check of a right changes nothing. -/
theorem Actor.readOnly_require (a : Actor) (resource action owner : String) :
    Tx.ReadOnly (a.require resource action owner : Tx σ Failure Unit) :=
  Tx.ReadOnly.require _ _

/-- A demand changes nothing. -/
theorem readOnly_demandPolicy (p : Prop) [Decidable p] (message : String) :
    Tx.ReadOnly (demandPolicy p message : Tx σ Failure Unit) :=
  Tx.ReadOnly.require _ _

/-- A validated integer is an integer in range. -/
theorem integer_ok_iff {v : Value} {lo hi n : ℤ} :
    integer v lo hi = .ok n ↔ v = .int n ∧ lo ≤ n ∧ n ≤ hi := by
  unfold integer
  cases v with
  | int m =>
      dsimp only
      split <;> rename_i h
      · constructor
        · rintro ⟨⟩
          exact ⟨rfl, h⟩
        · rintro ⟨⟨⟩, _⟩
          rfl
      · constructor
        · rintro ⟨⟩
        · rintro ⟨⟨⟩, hn⟩
          exact absurd hn h
  | none => simp
  | bool b => simp
  | str s => simp
  | other => simp

/-- The owner role passes every permission check. -/
theorem Actor.can_owner {a : Actor} (h : a.role = .owner) (resource action owner : String) :
    a.can resource action owner = true := by
  simp [Actor.can, h]

end Policy
end DarkXray
