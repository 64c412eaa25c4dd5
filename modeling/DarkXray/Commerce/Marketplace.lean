import DarkXray.Commerce.Wallet

/-!
# The marketplace of representatives

A customer of the primary owner buys or renews a representative panel from the wallet.
The debit, the policy, the account, the subscription and the refund are transactions of
their own.
-/

namespace DarkXray
namespace Commerce

open Library Policy

/-! ## Orders -/

/-- {lit}`order`, in a step with a name. -/
def readRepOrder (name : ShopAction) (orderId owner : String) : ShopScript RepOrder :=
  lookAs name fun _ s => found ((s.repOrders.get? orderId).filter (·.owner = owner))
    "Representative order not found"

/-- Change the row of a representative order. -/
def Shop.updateRepOrder (s : Shop) (orderId : String) (f : RepOrder → RepOrder) : Shop :=
  { s with repOrders := s.repOrders.update orderId f }

/-- {lit}`is_primary_owner`. -/
def Shop.isPrimaryOwner (s : Shop) (owner : String) : Bool :=
  s.accounts.get? owner = some ⟨.owner, false⟩

/-- The id of a new representative: the loop ends with an id that no account has. -/
def repId (s : Shop) (telegramId : ℤ) (o : Moment) : Option String :=
  let base := "rep" ++ toString telegramId
  if (s.accounts.get? base).isNone then some base
  else if (s.accounts.get? (base ++ "_" ++ o.fresh)).isNone then some (base ++ "_" ++ o.fresh)
  else none

/-- The insertion of {lit}`create_order`. -/
def insertRepOrder (order : RepOrder) (o : Moment) : ShopTx String := do
  let orders ← Tx.read Shop.repOrders
  Tx.require (orders.get? o.fresh = none) .integrityError
  Tx.write fun s => { s with repOrders := s.repOrders.insert o.fresh order }
  return o.fresh

/-- {lit}`create_order` for a plan that is on sale. -/
def createRepOrder (owner : String) (telegramId : ℤ) (plan : PlanSnapshot) (priceMinor : ℤ)
    (renewalEnabled isPurchase : Bool) : ShopScript String := do
  let primary ← look fun _ s => .ok (s.isPrimaryOwner owner)
  insist (primary = true) "Representative marketplace exists only on the primary Owner panel"
  let sub ← look fun _ s => .ok (s.subscriptions.get? (owner, telegramId))
  insist (isPurchase = true → sub = none)
    "This Telegram account already owns a representative panel"
  insist (isPurchase = false → sub ≠ none) "No representative panel exists to renew"
  insist (isPurchase = false → renewalEnabled = true) "This plan is not available for renewal"
  let new ← look fun o s => .ok (repId s telegramId o)
  let rep ← Script.ofExcept <|
    if isPurchase then found new "Representative ID is taken"
    else .ok ((sub.map Subscription.representativeId).getD "")
  step (insertRepOrder ⟨owner, telegramId, isPurchase, priceMinor, .pending, plan, rep, isPurchase⟩)

/-! ## Provisioning -/

/-- A transaction of the payment of a representative order. -/
def repStep {α : Type} (part : RepPart) (body : Moment → ShopTx α) : ShopScript α :=
  Script.perform (.rep part) (commit body)

/-- {lit}`_apply_policy`: the checks of {lit}`owner_put`, the row in {lit}`owners`, the
profile, the audit and the reconciliation. -/
def applyPolicy (owner rep : String) (plan : PlanSnapshot) : ShopScript Unit := do
  let role ← look fun _ s => s.actorFor owner
  Script.ofExcept (ensure (role = .owner) .permissionDenied)
  let _ ← outside
  repStep .credit fun _ => Tx.write fun s => { s with
    credits := s.credits.upsert rep plan.credit fun _ => plan.credit }
  repStep .profile fun _ => Tx.write fun s => { s with
    profiles := s.profiles.upsert rep plan.profile fun _ => plan.profile }
  repStep .reconcile fun _ => pure ()

/-- {lit}`admin_create` for a representative. -/
def createAccount (rep : String) (_ : Moment) : ShopTx Unit := do
  let s ← Tx.read id
  demandPolicy ((s.profiles.get? rep).isSome = true) "Create a matching reseller profile first"
  Tx.require (s.accounts.get? rep = none) .integrityError
  Tx.write fun s => { s with accounts := s.accounts.insert rep ⟨.reseller, false⟩ }

/-- {lit}`UPDATE api_admins SET disabled=0`. -/
def Shop.enable (s : Shop) (rep : String) : Shop :=
  { s with accounts := s.accounts.update rep fun a => { a with disabled := false } }

/-- The subscription that a purchase starts. -/
def newSubscription (orderId : String) (order : RepOrder) (now : ℕ) : Subscription where
  representativeId := order.representativeId
  planId := order.snapshot.planId
  active := true
  startedAt := now
  expiresAt := now + order.snapshot.durationDays.toNat * 86400000
  suspendedAt := 0
  botAllowed := order.snapshot.botAllowed
  botWasEnabled := false
  lastOrderId := orderId

/-- The last transaction of a purchase. -/
def subscribeTx (orderId : String) (order : RepOrder) (now : ℕ) (_ : Moment) : ShopTx Unit := do
  Tx.write fun s => s.enable order.representativeId
  let s ← Tx.read id
  Tx.require (s.subscriptions.get? (order.owner, order.buyer) = none ∧
    s.subscriptions.rows.all (fun r => r.2.representativeId ≠ order.representativeId) = true)
    .integrityError
  Tx.write fun s =>
    { s.updateRepOrder orderId fun r => { r with status := .provisioned } with
      subscriptions := s.subscriptions.insert (order.owner, order.buyer)
        (newSubscription orderId order now) }

/-- The purchase branch of {lit}`_provision`. -/
def provisionPurchase (orderId : String) (order : RepOrder) : ShopScript Unit := do
  let now ← look fun o _ => .ok o.now
  applyPolicy order.owner order.representativeId order.snapshot
  let account ← look fun _ s => .ok (s.accounts.get? order.representativeId)
  match account with
  | some account =>
      insist (account.role = .reseller) "Generated representative ID conflicts with another role"
  | none => do
      insist (order.hasPassword = true) "Representative credential is unavailable"
      let role ← look fun _ s => s.actorFor order.owner
      Script.ofExcept (ensure (role = .owner) .permissionDenied)
      repStep .account (createAccount order.representativeId)
  repStep .delivery (subscribeTx orderId order now)

/-- The change of the bot of a renewed representative. -/
def renewBot (order : RepOrder) (sub : Subscription) (s : Shop) : Shop :=
  if order.snapshot.botAllowed then
    if sub.botWasEnabled then
      { s with bots := s.bots.update order.representativeId fun _ => true }
    else s
  else { s with bots := s.bots.update order.representativeId fun _ => false }

/-- The last transaction of a renewal; {lit}`sub` is the subscription that was read. -/
def extendTx (orderId : String) (order : RepOrder) (sub : Subscription) (now : ℕ) (_ : Moment) :
    ShopTx Unit := do
  Tx.write fun s => renewBot order sub (s.enable order.representativeId)
  Tx.write fun s =>
    { s.updateRepOrder orderId fun r => { r with status := .renewed } with
      subscriptions := s.subscriptions.update (order.owner, order.buyer) fun r =>
        { r with
          planId := order.snapshot.planId
          active := true
          expiresAt := max now sub.expiresAt + order.snapshot.durationDays.toNat * 86400000
          suspendedAt := 0
          botAllowed := order.snapshot.botAllowed
          botWasEnabled := false
          lastOrderId := orderId } }

/-- The renewal branch of {lit}`_provision`. -/
def provisionRenewal (orderId : String) (order : RepOrder) : ShopScript Unit := do
  let now ← look fun o _ => .ok o.now
  let sub ← look fun _ s => found
    ((s.subscriptions.get? (order.owner, order.buyer)).filter fun sub =>
      sub.representativeId = order.representativeId)
    "Representative subscription is unavailable"
  applyPolicy order.owner order.representativeId order.snapshot
  repStep .delivery (extendTx orderId order sub now)

/-! ## Expiry -/

/-- The transaction that suspends a subscription. -/
def suspendTx (key : String × ℤ) (sub : Subscription) (now : ℕ) (_ : Moment) : ShopTx Unit := do
  let bot ← Tx.read fun s => s.bots.get? sub.representativeId
  Tx.write fun s => { s with
    accounts := s.accounts.update sub.representativeId fun a =>
      if a.role = .reseller then { a with disabled := true } else a
    bots := s.bots.update sub.representativeId fun _ => false
    subscriptions := s.subscriptions.update key fun r =>
      if r.active then
        { r with
          active := false
          suspendedAt := now
          botWasEnabled := bot = some true }
      else r }

/-- The loop of {lit}`sweep_expired`. -/
def suspendAll (name : ShopAction) (now : ℕ) :
    List ((String × ℤ) × Subscription) → ShopScript Unit
  | [] => pure ()
  | (key, sub) :: rows => do
      Script.perform name (commit (suspendTx key sub now))
      suspendAll name now rows

/-- {lit}`sweep_expired`; the answer from outside says that the last sweep is recent. -/
def sweepExpired (name : ShopAction) (force : Bool) : ShopScript Unit := do
  let recent ← outsideAs name
  if force = false ∧ recent = true then pure ()
  else do
    let now ← lookAs name fun o _ => .ok o.now
    let rows ← lookAs name fun _ s => .ok <| s.subscriptions.rows.filter fun r =>
      r.2.active && decide (r.2.expiresAt ≤ now)
    suspendAll name now rows

/-! ## Payment -/

/-- {lit}`result`; the credential may be unreadable. -/
def repResult (name : ShopAction) (orderId owner : String) : ShopScript Unit := do
  let _ ← readRepOrder name orderId owner
  let _ ← outsideAs name

/-- The branches of {lit}`_provision`. -/
def provisionBranch (orderId : String) (order : RepOrder) : ShopScript Unit :=
  if order.isPurchase then provisionPurchase orderId order else provisionRenewal orderId order

/-- {lit}`_provision`; what comes after the delivery has a name of its own. -/
def provisionRep (owner orderId : String) : ShopScript Unit := do
  let order ← readRepOrder .plain orderId owner
  provisionBranch orderId order
  sweepExpired (.rep .finish) true
  repResult (.rep .finish) orderId owner

/-- The transaction of {lit}`_cleanup_failed_new_rep`, as far as its tables are here. -/
def cleanupTx (rep : String) (_ : Moment) : ShopTx Unit := do
  let s ← Tx.read id
  if s.managed.rows.any fun r => r.2.owner = rep then
    Tx.write fun s => { s with
      accounts := s.accounts.update rep fun a =>
        if a.role = .reseller then { a with disabled := true } else a }
  else if s.subscriptions.rows.any fun r => r.2.representativeId = rep then pure ()
  else if (s.accounts.get? rep).any (·.role ≠ .reseller) then pure ()
  else Tx.write fun s => { s with
    bots := s.bots.erase rep
    accounts := s.accounts.erase rep
    profiles := s.profiles.erase rep
    credits := s.credits.erase rep }

/-- The kind of the debit of an order. -/
def RepOrder.debitKind (order : RepOrder) : LedgerKind :=
  if order.isPurchase then .repPurchase else .repRenewal

/-- The transaction that takes the money. -/
def payRepTx (owner orderId : String) (telegramId : ℤ) (order : RepOrder) (o : Moment) :
    ShopTx Unit := do
  let _ ← debitTx owner telegramId order.amountMinor order.debitKind
    ("representative:" ++ orderId) o
  Tx.write fun s => s.updateRepOrder orderId fun r => { r with status := .paid }

/-- The transaction that gives the money back. -/
def refundTx (owner orderId : String) (telegramId : ℤ) (order : RepOrder) (o : Moment) :
    ShopTx Unit := do
  let _ ← creditTx owner telegramId order.amountMinor .repRefund ("refund:" ++ orderId) o
  Tx.write fun s => s.updateRepOrder orderId fun r => { r with status := .failedRefunded }

/-- {lit}`_cleanup_failed_new_rep`; a renewal needs none. -/
def cleanupRep (order : RepOrder) : ShopScript Unit :=
  if order.isPurchase then repStep .cleanup (cleanupTx order.representativeId) else pure ()

/-- The exception handler of {lit}`pay_order`. -/
def refundRep (owner orderId : String) (telegramId : ℤ) (order : RepOrder) (e : Failure) :
    ShopScript Unit := do
  Script.perform (.refund owner telegramId order.amountMinor ("refund:" ++ orderId))
    (commit (refundTx owner orderId telegramId order))
  cleanupRep order
  Script.raise e

/-- {lit}`pay_order`. -/
def payRepOrder (owner orderId : String) (telegramId : ℤ) : ShopScript Unit := do
  let order ← readRepOrder .plain orderId owner
  insist (order.buyer = telegramId)
    "Representative order does not belong to this Telegram account"
  if order.status ∈ [RepOrderStatus.provisioned, .renewed] then
    repResult .plain orderId owner
  else do
    insist (order.status ≠ .failedRefunded)
      "This failed order was refunded; create a new order"
    repStep .debit (payRepTx owner orderId telegramId order)
    (provisionRep owner orderId).handle fun e => refundRep owner orderId telegramId order e

end Commerce
end DarkXray
