import DarkXray.Commerce.Shop

/-!
# Wallets, top-ups and referrals

The methods of the customer center that move money without an order.

Main results:

- Theorem {lit}`newest_mem`: the newest of some rows is one of them.
-/

namespace DarkXray
namespace Commerce

open Library Policy

/-- The newest of some rows; among equally new ones any may be chosen. -/
def newest {ρ : Type} (createdAt : ρ → ℕ) (pick : ℕ) (rows : List (String × ρ)) :
    Option (String × ρ) :=
  let last := rows.filter fun r => rows.all fun r' => createdAt r'.2 ≤ createdAt r.2
  last[pick % last.length]?

/-- The newest row is one of the rows, and none is newer. -/
theorem newest_mem {ρ : Type} {createdAt : ρ → ℕ} {pick : ℕ} {rows : List (String × ρ)}
    {r : String × ρ} (h : newest createdAt pick rows = some r) :
    r ∈ rows ∧ ∀ r' ∈ rows, createdAt r'.2 ≤ createdAt r.2 := by
  have hmem := List.mem_filter.mp (List.mem_of_getElem? h)
  refine ⟨hmem.1, fun r' hr' => ?_⟩
  have hall := List.all_eq_true.mp hmem.2 r' hr'
  simpa using hall

/-! ## Wallets -/

/-- {lit}`wallet`. -/
def wallet (owner : String) (telegramId : ℤ) : ShopScript ℤ :=
  step fun _ => do
    Tx.write fun s => { s with wallets := s.wallets.upsert (owner, telegramId) 0 id }
    Tx.read fun s => s.balance owner telegramId

/-! ## Top-ups -/

/-- {lit}`topup`. -/
def readTopup (topup owner : String) : ShopScript (String × Topup) :=
  look fun _ s => do
    let t ← found ((s.topups.get? topup).filter (·.owner = owner)) "Wallet top-up not found"
    return (topup, t)

/-- The row with a {lit}`rowid`. -/
def Shop.topupByRowId (s : Shop) (owner : String) (rowId : ℕ) : Option (String × Topup) :=
  s.topups.rows.find? fun r => r.2.rowId = rowId && r.2.owner = owner

/-- {lit}`topup_by_rowid`. -/
def topupByRowId (owner : String) (rowId : ℕ) : ShopScript (String × Topup) :=
  look fun _ s => found (s.topupByRowId owner rowId) "Wallet top-up not found"

/-- {lit}`latest_waiting_topup`. -/
def latestWaitingTopup (owner : String) (telegramId : ℤ) :
    ShopScript (Option (String × Topup)) :=
  look fun o s => .ok <| newest Topup.createdAt o.pick <| s.topups.rows.filter fun r =>
    r.2.owner = owner && r.2.telegramId = telegramId && r.2.status = .awaitingReceipt

/-- The insertion of {lit}`create_topup`. -/
def insertTopup (owner : String) (telegramId amount : ℤ) (o : Moment) : ShopTx String := do
  let s ← Tx.read id
  Tx.require (s.topups.get? o.fresh = none) .integrityError
  Tx.write fun s => { s with
    topups := s.topups.insert o.fresh
      ⟨s.topups.rows.length + 1, owner, telegramId, amount, .awaitingReceipt, "", o.now⟩ }
  return o.fresh

/-- {lit}`create_topup`. -/
def createTopup (owner : String) (telegramId amount : ℤ) : ShopScript (String × Topup) := do
  insist (1000 ≤ amount ∧ amount ≤ 1000000000000) "Top-up amount is outside the allowed range"
  let topup ← step (insertTopup owner telegramId amount)
  readTopup topup owner

/-- Write the status of a top-up. -/
def writeTopup (topup : String) (f : Topup → Topup) : ShopScript Unit :=
  Script.perform (.topupStatus topup) <| commit fun _ =>
    Tx.write fun s => { s with topups := s.topups.update topup f }

/-- {lit}`record_topup_receipt`. -/
def recordTopupReceipt (owner : String) (telegramId : ℤ) (reference : String) :
    ShopScript (String × Topup) := do
  let waiting ← latestWaitingTopup owner telegramId
  let t ← Script.ofExcept (found waiting "No wallet top-up is waiting for a receipt")
  writeTopup t.1 fun r => { r with
    status := .review
    receiptRef := (reference.take 1024).toString }
  readTopup t.1 owner

/-- The transaction of {lit}`approve_topup`. -/
def approveTx (owner : String) (rowId : ℕ) (o : Moment) : ShopTx (String × Topup) := do
  let row ← Tx.read fun s => s.topupByRowId owner rowId
  let t ← Tx.ofExcept (found row "Wallet top-up not found")
  if t.2.status = .approved then return t
  else do
    demandPolicy (t.2.status = .review) "Top-up is not awaiting approval"
    let _ ← creditTx owner t.2.telegramId t.2.amountMinor .topup t.1 o
    Tx.write fun s => { s with
      topups := s.topups.update t.1 fun r => { r with status := .approved } }
    return (t.1, { t.2 with status := .approved })

/-- {lit}`approve_topup`. -/
def approveTopup (owner : String) (rowId : ℕ) : ShopScript (String × Topup) :=
  Script.perform (.approve owner rowId) (commit (approveTx owner rowId))

/-- {lit}`reject_topup`. -/
def rejectTopup (owner : String) (rowId : ℕ) : ShopScript (String × Topup) := do
  let t ← topupByRowId owner rowId
  insist (t.2.status = .review ∨ t.2.status = .awaitingReceipt) "Top-up cannot be rejected"
  writeTopup t.1 fun r => { r with status := .rejected }
  readTopup t.1 owner

/-! ## Referrals -/

/-- {lit}`settings`; only the reward is read. -/
def settings (owner : String) : ShopScript ℤ :=
  step fun _ => do
    Tx.write fun s => { s with referralRewards := s.referralRewards.upsert owner 0 id }
    Tx.read fun s => (s.referralRewards.get? owner).getD 0

/-- The transaction of {lit}`qualify_referral`. -/
def qualifyTx (owner : String) (telegramId reward : ℤ) (o : Moment) : ShopTx Bool := do
  let row ← Tx.read fun s => s.referrals.get? (owner, telegramId)
  match row with
  | none => return false
  | some r =>
      if r.referrer = 0 ∨ 0 < r.qualifiedAt then return false
      else do
        Tx.when (0 < reward) do
          let _ ← creditTx owner r.referrer reward .referral ("ref:" ++ toString telegramId) o
        Tx.write fun s => { s with
          referrals := s.referrals.update (owner, telegramId) fun r =>
            { r with
              qualifiedAt := o.now
              rewardMinor := reward } }
        return true

/-- {lit}`qualify_referral`. -/
def qualifyReferral (owner : String) (telegramId : ℤ) : ShopScript Bool := do
  let reward ← settings owner
  Script.perform (.reward owner telegramId reward) (commit (qualifyTx owner telegramId reward))

end Commerce
end DarkXray
