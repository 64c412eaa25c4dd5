import DarkXray.Credit.Entitlement
import DarkXray.Library.Tables

/-!
# The policy store

Tables of the policy store that carry the resource credit of representatives:
the owners with their two kinds of credit, the clients that are sold from it, the
unlimited entitlements and the credit ledger.

Main results:

- Theorem {lit}`Store.allocation_ok_iff`: what the allocation query returns.
- Theorem {lit}`Store.insertCredit_ok_iff`: a new ledger row has a new event id.
-/

namespace DarkXray
namespace Policy

open Library Credit

/-- A row of {lit}`owners`. -/
structure Owner where
  volumeCreditBytes : ℤ
  unlimitedCredit : ℤ
  unlimitedSpent : ℤ
  maxClients : ℤ
  manual : Bool
  accountDisabled : Bool
deriving DecidableEq, Repr

/-- A row of {lit}`clients`. -/
structure Client where
  owner : String
  limitIp : ℤ
  quotaBytes : ℤ
  expiresAt : ℤ
  manual : Bool
deriving DecidableEq, Repr

/-- A row of {lit}`unlimited_entitlements`. -/
structure EntitlementRow where
  owner : String
  state : Entitlement
  revision : ℕ
deriving DecidableEq, Repr

/-- A row of {lit}`resource_credit_ledger`. -/
structure CreditRow where
  owner : String
  volumeBytes : ℤ
  unlimitedUnits : ℤ
  kind : String
  reference : String
deriving DecidableEq, Repr

/-- The database behind a {lit}`Store`; {lit}`admins` is the role column of
{lit}`api_admins`. -/
structure Store where
  admins : String → Option Role
  owners : Table String Owner
  clients : Table String Client
  entitlements : Table String EntitlementRow
  resourceCreditLedger : Table String CreditRow

namespace Store

/-- A freshly created store: no rows besides the accounts. -/
def fresh (admins : String → Option Role) : Store where
  admins := admins
  owners := .empty
  clients := .empty
  entitlements := .empty
  resourceCreditLedger := .empty

/-- Sum of the positive quotas of the clients of an owner that a test selects. -/
def volumeOf (s : Store) (owner : String) (keep : String → Bool) : ℤ :=
  s.clients.total fun id c =>
    if c.owner = owner ∧ keep id = true ∧ 0 < c.quotaBytes then c.quotaBytes else 0

/-- Number of the clients of an owner. -/
def clientCount (s : Store) (owner : String) : ℤ :=
  s.clients.total fun _ c => if c.owner = owner then 1 else 0

/-- The volume part of {lit}`_allocation`; a sum that leaves the range of a stored
integer raises. -/
def allocation (s : Store) (owner : String) (keep : String → Bool) : Except Failure ℤ :=
  if s.volumeOf owner keep ≤ maxInt then .ok (s.volumeOf owner keep)
  else .error .integerOverflow

/-- {lit}`_resource_credit_enforced`. -/
def resourceCreditEnforced (s : Store) (owner : String) (actor : Option Actor) : Bool :=
  s.admins owner = some .reseller || actor.any fun a => a.role = .reseller

/-- {lit}`INSERT INTO resource_credit_ledger`: the event id is the primary key. -/
def insertCredit (eventId : String) (row : CreditRow) : Tx Store Failure Unit := do
  let old ← Tx.read fun s => s.resourceCreditLedger.get? eventId
  Tx.require (old = none) .integrityError
  Tx.write fun s => { s with resourceCreditLedger := s.resourceCreditLedger.insert eventId row }

/-! ## Credit of one owner -/

/-- Units recorded in the ledger of an owner. -/
def ledgerUnits (s : Store) (owner : String) : ℤ :=
  s.resourceCreditLedger.total fun _ r => if r.owner = owner then r.unlimitedUnits else 0

/-- Unlimited credit of an owner that is still unspent. -/
def unspent (s : Store) (owner : String) : ℤ :=
  (s.owners.get? owner).elim 0 fun r => r.unlimitedCredit - r.unlimitedSpent

/-- Units an owner has spent. -/
def spent (s : Store) (owner : String) : ℤ :=
  (s.owners.get? owner).elim 0 Owner.unlimitedSpent

/-- Volume credit of an owner. -/
def volumeCredit (s : Store) (owner : String) : ℤ :=
  (s.owners.get? owner).elim 0 Owner.volumeCreditBytes

/-- Quota bytes an owner has sold. -/
def soldVolume (s : Store) (owner : String) : ℤ :=
  s.clients.total fun _ c => if c.owner = owner ∧ 0 < c.quotaBytes then c.quotaBytes else 0

/-- The volume over all events of an owner is the sold volume. -/
theorem volumeOf_all (s : Store) (owner : String) :
    s.volumeOf owner (fun _ => true) = s.soldVolume owner := by
  simp [volumeOf, soldVolume]

/-- An allocation is the volume of the kept events, as long as it fits an integer column. -/
theorem allocation_ok_iff {s : Store} {owner : String} {keep : String → Bool} {n : ℤ} :
    s.allocation owner keep = .ok n ↔ s.volumeOf owner keep ≤ maxInt ∧ n = s.volumeOf owner keep := by
  unfold allocation
  split <;> rename_i h
  · simp [h, eq_comm]
  · simp [h]

/-- A credit event is inserted exactly if its id is new. -/
theorem insertCredit_ok_iff {eventId : String} {row : CreditRow} {s t : Store} {u : Unit} :
    insertCredit eventId row s = (.ok u, t) ↔
      s.resourceCreditLedger.get? eventId = none ∧
        { s with resourceCreditLedger := s.resourceCreditLedger.insert eventId row } = t := by
  simp only [insertCredit, Tx.read_bind, Tx.require_bind_iff, Tx.write_ok_iff]

end Store

end Policy
end DarkXray
