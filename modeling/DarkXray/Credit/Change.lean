import DarkXray.Policy.Store

/-!
# Charging an owner for unlimited service

{lit}`change` quotes a configuration of one client against its stored entitlement
and, unless only a preview is wanted, charges the owner: the spent units, the
credit ledger and the entitlement change together.

Main results:

- Theorem {lit}`change_ok`: a change that returns either leaves the store alone or
  moves the spent units and the ledger by the debit of an accepted plan change,
  and it never touches a client.
-/

namespace DarkXray
namespace Credit

open Library Policy

/-- The quote that {lit}`change` returns; {lit}`none` marks an owner whose credit
is not enforced. -/
structure Quote where
  units : ℤ
  remaining : Option ℤ
  after : Option ℤ
  enforced : Bool
  affordable : Bool
  ipLimit : Option ℤ
deriving DecidableEq, Repr

/-- The quote for an owner whose credit is not enforced. -/
def Quote.free : Quote where
  units := 0
  remaining := none
  after := none
  enforced := false
  affordable := true
  ipLimit := none

/-- The charge of {lit}`change`: spend the debit and record it. -/
def charge (clientId owner : String) (debit : ℤ) (creation : Bool) (revision : ℕ) :
    Tx Store Failure Unit := do
  let unspent ← Tx.read fun s => s.unspent owner
  demandPolicy (debit ≤ unspent) "Insufficient representative unlimited credit"
  Tx.write fun s => { s with
    owners := s.owners.update owner fun r =>
      { r with unlimitedSpent := r.unlimitedSpent + debit } }
  Store.insertCredit s!"unlimited:{clientId}:{revision}"
    { owner := owner, volumeBytes := 0, unlimitedUnits := -debit
      kind := if creation then "unlimited_create" else "unlimited_change"
      reference := clientId }

/-- {lit}`INSERT INTO unlimited_entitlements … ON CONFLICT DO UPDATE`. -/
def storeEntitlement (clientId owner : String) (state : Entitlement) (revision : ℕ) :
    Tx Store Failure Unit :=
  Tx.write fun s => { s with
    entitlements := s.entitlements.upsert clientId ⟨owner, state, revision⟩ fun r =>
      { r with state := state, revision := revision } }

/-- The entitlement row that {lit}`change` reads; an empty client id has none. -/
def entitlementOf (s : Store) (clientId : String) : Option EntitlementRow :=
  if clientId = "" then none else s.entitlements.get? clientId

/-- The quote for an owner whose credit is enforced. -/
def Quote.of (debit remaining ipLimit : ℤ) : Quote where
  units := debit
  remaining := some remaining
  after := some (remaining - debit)
  enforced := true
  affordable := debit ≤ remaining
  ipLimit := some ipLimit

/-- The writes of {lit}`change`. -/
def settle (clientId owner : String) (row : Option EntitlementRow) (new : Entitlement)
    (debit : ℤ) (creation : Bool) : Tx Store Failure Unit := do
  let revision := row.elim 1 fun r => r.revision + 1
  Tx.when (debit ≠ 0) (charge clientId owner debit creation revision)
  storeEntitlement clientId owner new revision

/-- {lit}`change` with its database argument; {lit}`c` holds the requested
configuration and the clock. -/
def change (clientId owner : String) (c : PlanCall) (preview : Bool) :
    Tx Store Failure Quote := do
  let account ← Tx.read fun s => s.owners.get? owner
  let account ← Tx.demand account (.policyError "Owner is not registered")
  let remaining := max 0 (account.unlimitedCredit - account.unlimitedSpent)
  let enforced ← Tx.read fun s => s.resourceCreditEnforced owner none
  if enforced = false then return Quote.free
  else do
    let row ← Tx.read fun s => entitlementOf s clientId
    demandPolicy (∀ r, row = some r → r.owner = owner) "Unlimited entitlement owner mismatch"
    demandPolicy (¬(c.creation = true ∧ row ≠ none))
      "Client identity has a historical entitlement; choose a new identity"
    let state := row.map EntitlementRow.state
    let (new, debit) ← Tx.ofExcept
      (planChange state { c with creation := c.creation || row = none })
    if preview = true then return Quote.of debit remaining c.ipLimit
    else do
      demandPolicy (debit ≤ remaining)
        s!"Insufficient representative unlimited credit: need {debit} user-month units, available {remaining}"
      if state = some new then return Quote.of debit remaining c.ipLimit
      else do
        settle clientId owner row new debit c.creation
        return Quote.of debit remaining c.ipLimit

/-! ## What a change does to the store -/

/-- The effect of a debit on owners and ledger: a positive one moves the spent
units and the ledger together, no debit leaves both alone. -/
inductive Charged (owner : String) (debit : ℤ) (s t : Store) : Prop
  | free : debit = 0 → t.owners = s.owners →
      t.resourceCreditLedger = s.resourceCreditLedger → Charged owner debit s t
  | paid {eventId : String} {row : CreditRow} :
      0 < debit → debit ≤ s.unspent owner →
      t.owners = (s.owners.update owner fun r =>
        { r with unlimitedSpent := r.unlimitedSpent + debit }) →
      row.owner = owner → row.unlimitedUnits = -debit →
      s.resourceCreditLedger.get? eventId = none →
      t.resourceCreditLedger = s.resourceCreditLedger.insert eventId row →
      Charged owner debit s t

/-- Outcomes of a change that returns.  In an enforced account the quoted plan is
one step of the client's entitlement. -/
inductive Changed (clientId owner : String) (c : PlanCall) (preview : Bool) (s t : Store) : Prop
  | unenforced : s.resourceCreditEnforced owner none = false → t = s →
      Changed clientId owner c preview s t
  | quoted {c' : PlanCall} {new : Entitlement} {debit : ℤ} :
      c' = { c with creation := c'.creation } →
      (c'.creation = true → entitlementOf s clientId = none) →
      planChange ((entitlementOf s clientId).map EntitlementRow.state) c' = .ok (new, debit) →
      t = s → Changed clientId owner c preview s t
  | settled {c' : PlanCall} {new : Entitlement} {debit : ℤ} :
      preview = false → c' = { c with creation := c'.creation } →
      (c'.creation = true → entitlementOf s clientId = none) →
      planChange ((entitlementOf s clientId).map EntitlementRow.state) c' = .ok (new, debit) →
      Charged owner debit s t → t.clients = s.clients → t.admins = s.admins →
      (t.entitlements.get? clientId).map EntitlementRow.state = some new →
      Changed clientId owner c preview s t

/-- An accepted charge takes the debit from the owner. -/
theorem charge_ok {clientId owner : String} {debit : ℤ} {creation : Bool} {revision : ℕ}
    {s t : Store} {u : Unit} (hdebit : 0 < debit)
    (h : charge clientId owner debit creation revision s = (.ok u, t)) :
    Charged owner debit s t ∧ t.clients = s.clients ∧ t.admins = s.admins ∧
      t.entitlements = s.entitlements := by
  simp only [charge, Tx.read_bind, demandPolicy, Tx.require_bind_iff, Tx.write_bind,
    Store.insertCredit_ok_iff] at h
  rcases h with ⟨hunspent, hnew, rfl⟩
  exact ⟨.paid hdebit hunspent rfl rfl rfl hnew rfl, rfl, rfl, rfl⟩

/-- No accepted change has a negative debit. -/
theorem Accepted.debit_nonneg {out new : Entitlement} {c : PlanCall} {debit : ℤ}
    (h : Accepted out c new debit) : 0 ≤ debit := by
  cases h with
  | volume _ => exact le_rfl
  | @createPending days _ hips _ _ hlo _ =>
      have : 0 < c.ipLimit * days := mul_pos hips (by omega)
      omega
  | pending _ _ _ _ hbill => exact hbill.debit ▸ le_max_left _ _
  | timed _ _ _ _ _ _ hbill => exact hbill.debit ▸ le_max_left _ _

/-- An accepted change stores the entitlement and charges it. -/
theorem settle_ok {clientId owner : String} {row : Option EntitlementRow} {new : Entitlement}
    {debit : ℤ} {creation : Bool} {s t : Store} {u : Unit} (hdebit : 0 ≤ debit)
    (h : settle clientId owner row new debit creation s = (.ok u, t)) :
    Charged owner debit s t ∧ t.clients = s.clients ∧ t.admins = s.admins ∧
      (t.entitlements.get? clientId).map EntitlementRow.state = some new := by
  have hstored : ∀ (entitlements : Table String EntitlementRow) (revision : ℕ),
      ((entitlements.upsert clientId ⟨owner, new, revision⟩ fun r =>
        { r with state := new, revision := revision }).get? clientId).map EntitlementRow.state =
          some new := by
    intro entitlements revision
    rw [Table.get?_upsert, if_pos rfl]
    cases entitlements.get? clientId <;> rfl
  simp only [settle, storeEntitlement, Tx.bind_ok_iff, Tx.when_ok_iff, Tx.write_ok_iff] at h
  rcases h with ⟨_, a, ⟨hne, hcharge⟩ | ⟨heq, rfl⟩, rfl⟩
  · rcases charge_ok (lt_of_le_of_ne hdebit (Ne.symm hne)) hcharge with
      ⟨hcharged, hclients, hadmins, _⟩
    refine ⟨?_, hclients, hadmins, hstored _ _⟩
    cases hcharged with
    | free h0 howners hledger => exact .free h0 howners hledger
    | paid hpos hunspent howners hrow hunits hnew hledger =>
        exact .paid hpos hunspent howners hrow hunits hnew hledger
  · exact ⟨.free (not_not.mp heq) rfl rfl, rfl, rfl, hstored _ _⟩

/-- What a change that returns has done. -/
theorem change_ok {clientId owner : String} {c : PlanCall} {preview : Bool} {s t : Store}
    {quote : Quote} (h : change clientId owner c preview s = (.ok quote, t)) :
    Changed clientId owner c preview s t := by
  simp only [change, Tx.read_bind, Tx.demand_bind_iff, Tx.ite_ok_iff, demandPolicy,
    Tx.require_bind_iff, Tx.ofExcept_bind_iff, Tx.pure_ok_iff] at h
  rcases h with ⟨account, _, ⟨hfree, _, rfl⟩ | ⟨_, _, hhistory, ⟨new, debit⟩, hplan, h⟩⟩
  · exact .unenforced hfree rfl
  · have hcreate : (c.creation || decide (entitlementOf s clientId = none)) = true →
        entitlementOf s clientId = none := by
      intro hc
      by_contra hrow
      simp only [hrow, decide_false, Bool.or_false] at hc
      exact hhistory ⟨hc, hrow⟩
    rcases h with ⟨_, _, rfl⟩ | ⟨hpreview, _, ⟨_, _, rfl⟩ | ⟨_, h⟩⟩
    · exact .quoted rfl hcreate hplan rfl
    · exact .quoted rfl hcreate hplan rfl
    · simp only [Tx.bind_ok_iff, Tx.pure_ok_iff] at h
      rcases h with ⟨_, _, hsettle, _, rfl⟩
      rcases settle_ok (planChange_ok hplan).debit_nonneg hsettle with
        ⟨hcharged, hclients, hadmins, hstored⟩
      exact .settled (by simpa using hpreview) rfl hcreate hplan hcharged hclients hadmins hstored

end Credit
end DarkXray
