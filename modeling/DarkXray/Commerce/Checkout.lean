import Mathlib.Data.List.Sort
import DarkXray.Commerce.Wallet

/-!
# Orders, payments and delivery

The methods that take an order from its payment to its client.  The panel that creates
and changes clients is represented by the part of a client that the shop writes; each of
its operations has one transaction that can succeed although the operation raises later.

Main results:

- Theorem {lit}`newestPayment_mem`: the payment that a receipt or a confirmation is
  entered in.
-/

namespace DarkXray
namespace Commerce

open Library Policy

/-! ## Rows -/

/-- {lit}`order`, in a step with a name; without an owner any row is found. -/
def readOrderAs (name : ShopAction) (orderId owner : String) : ShopScript Order :=
  lookAs name fun _ s => found
    ((s.orders.get? orderId).filter fun r => owner = "" || r.owner = owner) "Order not found"

/-- {lit}`order`. -/
def readOrder (orderId owner : String) : ShopScript Order :=
  readOrderAs .plain orderId owner

/-- The row of an order, in a transaction. -/
def orderTx (orderId owner message : String) : ShopTx Order := do
  let row ← Tx.read fun s => (s.orders.get? orderId).filter (·.owner = owner)
  Tx.ofExcept (found row message)

/-- Change the row of an order. -/
def Shop.updateOrder (s : Shop) (orderId : String) (f : Order → Order) : Shop :=
  { s with orders := s.orders.update orderId f }

/-- The orders after one of them has changed. -/
@[simp]
theorem updateOrder_orders (s : Shop) (orderId : String) (f : Order → Order) :
    (s.updateOrder orderId f).orders = s.orders.update orderId f :=
  rfl

/-- {lit}`payment_by_rowid`. -/
def paymentByRowId (owner : String) (rowId : ℕ) : ShopScript (String × Payment) :=
  look fun _ s => found
    (s.payments.rows.find? fun r => r.2.rowId = rowId && r.2.owner = owner) "Payment not found"

/-- The payments of an order. -/
def Shop.paymentsOf (s : Shop) (orderId : String) : List (String × Payment) :=
  s.payments.rows.filter fun r => r.2.orderId = orderId

/-- The newest payment of an order. -/
def Shop.newestPayment (s : Shop) (orderId : String) (pick : ℕ) : Option (String × Payment) :=
  newest Payment.createdAt pick (s.paymentsOf orderId)

/-- Insert a payment; its id is unique. -/
def insertPayment (orderId : String) (order : Order) (gatewayId : String)
    (status : PaymentStatus) (externalRef : String) (o : Moment) : ShopTx Unit := do
  let payments ← Tx.read Shop.payments
  Tx.require (payments.get? o.fresh = none) .integrityError
  Tx.write fun s => { s with
    payments := s.payments.insert o.fresh ⟨s.payments.rows.length + 1, orderId, order.owner,
      gatewayId, order.amountMinor, status, externalRef, o.now⟩ }

/-! ## New orders -/

/-- One day. -/
def day : ℕ := 86400000

/-- What an order takes from its price. -/
structure Offer where
  amountMinor : ℤ
  currency : String
  volumeBytes : ℤ
  durationDays : ℤ
  ipLimit : ℤ
  hwidLimit : ℤ
  inboundIds : List ℤ
  firstConnection : Bool
deriving DecidableEq, Repr

/-- The row of a new order. -/
def newOrder (owner : String) (buyer : ℤ) (offer : Offer) (orderType : OrderType)
    (target : String) (targetExpiry : ℤ) (now : ℕ) : Order where
  owner := owner
  buyer := buyer
  amountMinor := offer.amountMinor
  currency := offer.currency
  status := .pending
  gatewayId := ""
  paymentRef := ""
  createdAt := now
  updatedAt := now
  clientId := ""
  fulfillmentError := ""
  volumeBytes := offer.volumeBytes
  durationDays := offer.durationDays
  ipLimit := offer.ipLimit
  hwidLimit := offer.hwidLimit
  inboundIds := offer.inboundIds
  firstConnection := offer.firstConnection && orderType = .purchase
  orderType := orderType
  targetClientId := target
  renewalTargetExpiry := targetExpiry
  activationStartedAt := 0
  activationExpiresAt := 0

/-- Insert an order; its id is unique. -/
def insertOrder (order : ℕ → Order) (o : Moment) : ShopTx String := do
  let row := order o.now
  requirePlanCredit row.owner row.volumeBytes
  let orders ← Tx.read Shop.orders
  Tx.require (orders.get? o.fresh = none) .integrityError
  Tx.write fun s => { s with orders := s.orders.insert o.fresh row }
  return o.fresh

/-- {lit}`create_order`, for a price that is on sale. -/
def createOrder (owner : String) (buyer : ℤ) (offer : Offer) : ShopScript String :=
  step (insertOrder (newOrder owner buyer offer .purchase "" 0))

/-- {lit}`create_renewal_order`, for a price of the service. -/
def createRenewalOrder (owner : String) (buyer : ℤ) (target : String) (offer : Offer) :
    ShopScript String := do
  let origin ← look fun _ s => .ok <| s.orders.rows.any fun r =>
    r.2.owner = owner && r.2.buyer = buyer && r.2.clientId = target &&
      (r.2.status = .provisioned || r.2.status = .provisionedWaitingActivation)
  insist (origin = true) "Service has no DARK purchase history"
  let _ ← look fun _ s => s.actorFor owner
  let client ← look fun _ s => found (s.managed.get? target) "Managed client not found"
  insist (client.telegramId = buyer) "Service does not belong to this Telegram user"
  let waiting ← look fun _ s => .ok <| s.orders.rows.any fun r =>
    r.2.owner = owner && r.2.clientId = target && r.2.status = .provisionedWaitingActivation
  insist (waiting = false) "Service is waiting for first connection activation"
  step (insertOrder fun now => newOrder owner buyer offer .renewal target
    (max (now : ℤ) client.expiryTime + (max 1 offer.durationDays).toNat * day) now)

/-! ## Payments -/

/-- The transaction of {lit}`start_payment`. -/
def startPaymentTx (owner orderId gatewayId : String) (o : Moment) : ShopTx Unit := do
  let order ← orderTx orderId owner "Order not found"
  requirePlanCredit owner order.volumeBytes
  demandPolicy (order.status ∈ [.pending, .awaitingPayment, .paymentRejected])
    "Order cannot enter payment from current state"
  let enabled ← Tx.read fun s => s.gateways.get? (owner, gatewayId)
  demandPolicy (enabled = some true) "Payment gateway not found or disabled"
  Tx.write fun s => s.updateOrder orderId fun r =>
    { r with
      status := .awaitingPayment
      gatewayId := gatewayId
      paymentRef := ""
      updatedAt := o.now }
  insertPayment orderId order gatewayId .pending "" o

/-- {lit}`start_payment`; the checkout page of a plugin is outside of the shop. -/
def startPayment (owner orderId gatewayId : String) : ShopScript Unit := do
  step (startPaymentTx owner orderId gatewayId)
  let _ ← outside

/-- {lit}`latest_waiting_order`. -/
def latestWaitingOrder (owner : String) (buyer : ℤ) : ShopScript (Option (String × Order)) :=
  look fun o s => .ok <| newest Order.createdAt o.pick <| s.orders.rows.filter fun r =>
    r.2.owner = owner && r.2.buyer = buyer && r.2.status = .awaitingPayment

/-- The transaction of {lit}`record_receipt`. -/
def recordReceiptTx (owner orderId reference : String) (o : Moment) : ShopTx Unit := do
  let s ← Tx.read id
  let pay ← Tx.ofExcept <| found
    (newest Payment.createdAt o.pick ((s.paymentsOf orderId).filter (·.2.owner = owner)))
    "Payment record not found"
  let cut := (reference.take 1024).toString
  Tx.write fun s =>
    { s.updateOrder orderId fun r =>
        { r with
          status := .paymentReview
          paymentRef := cut
          updatedAt := o.now } with
      payments := s.payments.update pay.1 fun r =>
        { r with
          status := .review
          externalRef := cut } }

/-- {lit}`record_receipt`. -/
def recordReceipt (owner : String) (buyer : ℤ) (reference : String) : ShopScript Unit := do
  let waiting ← latestWaitingOrder owner buyer
  let order ← Script.ofExcept (found waiting "No order is waiting for a payment receipt")
  step (recordReceiptTx owner order.1 reference)

/-- The transaction of {lit}`reject_payment`. -/
def rejectPaymentTx (paymentId orderId : String) (o : Moment) : ShopTx Unit :=
  Tx.write fun s =>
    { s.updateOrder orderId fun r =>
        { r with
          status := .paymentRejected
          updatedAt := o.now } with
      payments := s.payments.update paymentId fun r => { r with status := .rejected } }

/-- {lit}`reject_payment`. -/
def rejectPayment (owner : String) (rowId : ℕ) : ShopScript Unit := do
  let pay ← paymentByRowId owner rowId
  step (rejectPaymentTx pay.1 pay.2.orderId)
  let _ ← readOrder pay.2.orderId owner

/-! ## The panel -/

/-- {lit}`manager.detail`. -/
def managerDetail (identity : String) : ShopScript Managed :=
  look fun _ s => found (s.managed.get? identity) "Managed client not found"

/-- The transaction of {lit}`manager.create`. -/
def stageClient (identity : String) (client : Managed) (_ : Moment) : ShopTx Unit := do
  let old ← Tx.read fun s => s.managed.get? identity
  demandPolicy (old = none) "Client identity already exists"
  Tx.write fun s => { s with managed := s.managed.insert identity client }

/-- {lit}`manager.create`. -/
def managerCreate (identity : String) (client : Managed) : ShopScript Unit := do
  step (stageClient identity client)
  let _ ← outside

/-- The transaction of {lit}`manager.update`. -/
def stageUpdate (identity : String) (f : Managed → Managed) (_ : Moment) : ShopTx Unit := do
  let old ← Tx.read fun s => s.managed.get? identity
  let _ ← Tx.ofExcept (found old "Managed client not found")
  Tx.write fun s => { s with managed := s.managed.update identity f }

/-- {lit}`manager.update`. -/
def managerUpdate (identity : String) (f : Managed → Managed) : ShopScript Unit := do
  let _ ← outside
  step (stageUpdate identity f)
  let _ ← outside

/-! ## Delivery -/

/-- The comment of the client of an order. -/
def orderComment (orderId : String) : String :=
  "DARK BOT order " ++ orderId

/-- The identity of the client of an order. -/
def orderIdentity (prefixText orderId : String) (buyer : ℤ) : String :=
  (prefixText ++ "tg" ++ toString buyer ++ "_" ++
    String.ofList (orderId.toList.drop (orderId.length - 8))).toLower

/-- {lit}`max(1,int(order.get('duration_days') or 1))`, as a time. -/
def Order.duration (order : Order) : ℕ :=
  (max 1 order.durationDays).toNat * day

/-- The client of an order that is delivered now. -/
def orderClient (orderId : String) (order : Order) (now : ℕ) : Managed where
  owner := order.owner
  comment := orderComment orderId
  telegramId := order.buyer
  expiryTime := if order.firstConnection then 0 else (now + order.duration : ℕ)
  totalBytes := order.volumeBytes
  limitIp := order.ipLimit
  limitHwid := order.hwidLimit

/-- The client of an order is created, or found from an earlier attempt. -/
def produceClient (orderId : String) (order : Order) (identity : String) (now : ℕ) :
    ShopScript Unit := do
  let existing ← look fun _ s => .ok (s.managed.get? identity)
  match existing with
  | some saved => do
      insist (saved.owner = order.owner ∧ saved.comment = orderComment orderId)
        "Order identity conflicts with an existing service"
      let _ ← outside
      let _ ← managerDetail identity
  | none => managerCreate identity (orderClient orderId order now)

/-- The transaction that reports a failure. -/
def noteFulfillment (orderId : String) (e : Failure) : ShopScript Unit :=
  step fun o => Tx.write fun s => s.updateOrder orderId fun r =>
    { r with
      fulfillmentError := (e.message.take 1000).toString
      updatedAt := o.now }

/-- Note a failure, and raise it again. -/
def orNote (orderId : String) (script : ShopScript Unit) : ShopScript Unit :=
  script.handle fun e => do
    noteFulfillment orderId e
    Script.raise e

/-- The transaction that delivers an order. -/
def deliverTx (orderId identity : String) (order : Order) (now : ℕ) (o : Moment) :
    ShopTx Unit :=
  Tx.write fun s => s.updateOrder orderId fun r =>
    { r with
      status := if order.firstConnection then .provisionedWaitingActivation else .provisioned
      clientId := identity
      fulfillmentError := ""
      activationStartedAt := if order.firstConnection then 0 else now
      activationExpiresAt := if order.firstConnection then 0 else now + order.duration
      updatedAt := o.now }

/-- {lit}`delivery_payload`; the links come from outside of the shop. -/
def deliveryPayload (orderId : String) : ShopScript Unit := do
  let order ← readOrder orderId ""
  if order.clientId = "" then pure ()
  else do
    let _ ← look fun _ s => s.actorFor order.owner
    let _ ← managerDetail order.clientId
    let _ ← outside

/-- {lit}`_provision_order_locked` for an order that has no client yet. -/
def produce (orderId : String) (order : Order) : ShopScript Unit := do
  let _ ← look fun _ s => s.actorFor order.owner
  let profile ← look fun _ s =>
    found (s.profiles.get? order.owner) "Owner profile not configured"
  let now ← look fun o _ => .ok o.now
  let identity := orderIdentity profile.prefixText orderId order.buyer
  orNote orderId (produceClient orderId order identity now)
  step (deliverTx orderId identity order now)
  deliveryPayload orderId

/-- {lit}`provision_order`; its result is left out. -/
def provisionOrder (orderId : String) : ShopScript Unit := do
  let order ← readOrder orderId ""
  if order.clientId = "" then produce orderId order
  else do
    let _ ← look fun _ s => s.actorFor order.owner
    let _ ← managerDetail order.clientId
    deliveryPayload orderId

/-- The transaction of {lit}`confirm_payment`. -/
def confirmTx (orderId reference : String) (o : Moment) : ShopTx Unit := do
  Tx.write fun s => s.updateOrder orderId fun r =>
    { r with
      status := .paid
      paymentRef := (reference.take 256).toString
      updatedAt := o.now }
  let pay ← Tx.read fun s => s.newestPayment orderId o.pick
  match pay with
  | none => pure ()
  | some pay => Tx.write fun s => { s with
      payments := s.payments.update pay.1 fun r =>
        if r.status = .paid then r
        else { r with
          status := .paid
          externalRef := (reference.take 1024).toString } }

/-- {lit}`confirm_payment`; the result says whether the order was delivered. -/
def confirmPayment (owner orderId reference : String) : ShopScript Bool := do
  let order ← readOrderAs .confirm orderId owner
  insist (order.status ∈ [.awaitingPayment, .paymentReview, .paid])
    "Order is not awaiting payment confirmation"
  Script.perform .confirm (commit (confirmTx orderId reference))
  Script.handle
    (do
      provisionOrder orderId
      let _ ← readOrder orderId owner
      return true)
    fun _ => return false

/-- {lit}`approve_payment`. -/
def approvePayment (owner : String) (rowId : ℕ) : ShopScript Bool := do
  let pay ← paymentByRowId owner rowId
  confirmPayment owner pay.2.orderId (if pay.2.externalRef = "" then pay.1 else pay.2.externalRef)

/-! ## Activation -/

/-- The transaction that fixes the time of the first use; it returns the stored times. -/
def startActivationTx (orderId : String) (order : Order) (o : Moment) : ShopTx (ℕ × ℕ) := do
  Tx.write fun s => s.updateOrder orderId fun r =>
    if r.activationExpiresAt = 0 then
      { r with
        activationStartedAt := o.now
        activationExpiresAt := o.now + order.duration }
    else r
  let row ← Tx.read fun s => s.orders.get? orderId
  let saved ← Tx.demand row (.coreError "'NoneType' object is not subscriptable")
  return (saved.activationStartedAt, saved.activationExpiresAt)

/-- The transaction that ends an activation. -/
def finishActivationTx (orderId : String) (started expires : ℕ) (o : Moment) : ShopTx Unit :=
  Tx.write fun s => s.updateOrder orderId fun r =>
    if r.status = .provisionedWaitingActivation then
      { r with
        status := .provisioned
        activationStartedAt := started
        activationExpiresAt := expires
        updatedAt := o.now }
    else r

/-- One round of {lit}`activate_first_connections`; the answer from outside says that the
client has been used. -/
def activateOne (orderId : String) (order : Order) : ShopScript Unit := do
  let _ ← look fun _ s => s.actorFor order.owner
  let _ ← managerDetail order.clientId
  let used ← outside
  if used then do
    let times ← step (startActivationTx orderId order)
    managerUpdate order.clientId fun c => { c with expiryTime := times.2 }
    step (finishActivationTx orderId times.1 times.2)
  else pure ()

/-- The rounds of {lit}`activate_first_connections`; exceptions are dropped. -/
def activateAll : List (String × Order) → ShopScript Unit
  | [] => pure ()
  | (orderId, order) :: rows => do
      (activateOne orderId order).handle fun _ => pure ()
      activateAll rows

/-- The orders that wait for their first use. -/
def Shop.waitingOrders (s : Shop) (limit : ℕ) : List (String × Order) :=
  ((s.orders.rows.filter fun r =>
      r.2.status = .provisionedWaitingActivation && r.2.clientId ≠ "").insertionSort
    fun r r' => r.2.updatedAt ≤ r'.2.updatedAt).take limit

/-- {lit}`activate_first_connections`. -/
def activateFirstConnections (limit : ℕ) : ShopScript Unit := do
  let rows ← look fun _ s => .ok (s.waitingOrders limit)
  activateAll rows

/-! ## Payment from the wallet -/

/-- {lit}`CURRENCY`. -/
def currencyCode : String := "IRT"

/-- The order has a payment from the wallet. -/
def Shop.hasWalletPayment (s : Shop) (orderId owner : String) : Bool :=
  (s.paymentsOf orderId).any fun r => r.2.owner = owner && r.2.gatewayId = "wallet"

/-- What both wallet payments do once the order's status allows it. -/
def payTx (owner orderId : String) (current : Order) (kind : LedgerKind) (reference : String)
    (payment : Moment) (o : Moment) : ShopTx Unit := do
  requirePlanCredit owner current.volumeBytes
  let _ ← debitTx owner current.buyer current.amountMinor kind reference o
  let known ← Tx.read fun s => s.hasWalletPayment orderId owner
  Tx.when (known = false) (insertPayment orderId current "wallet" .paid reference payment)
  Tx.write fun s => s.updateOrder orderId fun r =>
    { r with
      status := .paid
      gatewayId := "wallet"
      paymentRef := reference
      updatedAt := o.now }

/-- The transaction of {lit}`pay_purchase`; {lit}`payment` has the id of the payment. -/
def payPurchaseTx (owner orderId paymentId : String) (o : Moment) : ShopTx Unit := do
  let current ← orderTx orderId owner "Order not found"
  demandPolicy (current.status ∈ [.pending, .awaitingPayment, .paymentRejected, .paid])
    "Order cannot be paid from current state"
  payTx owner orderId current .purchase ("order:" ++ orderId) { o with fresh := paymentId } o

/-- {lit}`pay_purchase`. -/
def payPurchase (owner orderId : String) : ShopScript Unit := do
  let order ← readOrder orderId owner
  insist (order.orderType = .purchase) "Order is not a purchase"
  insist (order.currency.toUpper = currencyCode) "Wallet currently supports IRT products only"
  if order.status ∈ [OrderStatus.provisioned, .provisionedWaitingActivation] then do
    provisionOrder orderId
    let _ ← qualifyReferral owner order.buyer
  else do
    let paymentId ← look fun o _ => .ok o.fresh
    step (payPurchaseTx owner orderId paymentId)
    provisionOrder orderId
    let _ ← qualifyReferral owner order.buyer
    let _ ← readOrder orderId owner

/-- The transaction of {lit}`pay_renewal`; the result says that the order is renewed
already. -/
def payRenewalTx (owner orderId paymentId : String) (o : Moment) : ShopTx Bool := do
  let current ← orderTx orderId owner "Renewal order not found"
  if current.status = .renewed then return true
  else do
    demandPolicy (current.status ∈ [.pending, .paid]) "Renewal cannot be paid from current state"
    payTx owner orderId current .renewal ("renewal:" ++ orderId) { o with fresh := paymentId } o
    return false

/-- The transaction that fixes the expiry of a renewal. -/
def renewalExpiryTx (orderId : String) (expiry : ℤ) (_ : Moment) : ShopTx ℤ := do
  Tx.write fun s => s.updateOrder orderId fun r =>
    if r.renewalTargetExpiry ≤ 0 then { r with renewalTargetExpiry := expiry } else r
  let row ← Tx.read fun s => s.orders.get? orderId
  let saved ← Tx.demand row (.coreError "'NoneType' object is not subscriptable")
  return saved.renewalTargetExpiry

/-- The expiry of a renewal. -/
def renewalExpiry (orderId : String) (order : Order) (client : Managed) : ShopScript ℤ :=
  if order.renewalTargetExpiry ≤ 0 then do
    let now ← look fun o _ => .ok o.now
    step (renewalExpiryTx orderId (max (now : ℤ) client.expiryTime + order.duration))
  else pure order.renewalTargetExpiry

/-- The transaction that ends a renewal. -/
def renewTx (orderId target : String) (o : Moment) : ShopTx Unit :=
  Tx.write fun s => s.updateOrder orderId fun r =>
    { r with
      status := .renewed
      clientId := target
      fulfillmentError := ""
      updatedAt := o.now }

/-- The renewal of the client of a paid order. -/
def renewClient (orderId target : String) (order : Order) : ShopScript Unit := do
  let _ ← look fun _ s => s.actorFor order.owner
  let client ← managerDetail target
  insist (client.telegramId = order.buyer) "Service does not belong to this Telegram user"
  let waiting ← look fun _ s => .ok <| s.orders.rows.any fun r =>
    r.2.owner = order.owner && r.2.clientId = target &&
      r.2.status = .provisionedWaitingActivation
  insist (waiting = false) "Service is waiting for first connection activation"
  let expiry ← renewalExpiry orderId order client
  managerUpdate target fun c =>
    { c with
      expiryTime := expiry
      totalBytes := order.volumeBytes
      limitIp := order.ipLimit
      limitHwid := order.hwidLimit }
  let _ ← outside
  step (renewTx orderId target)
  let _ ← managerDetail target

/-- {lit}`pay_renewal`. -/
def payRenewal (owner orderId : String) : ShopScript Unit := do
  let order ← readOrder orderId owner
  insist (order.orderType = .renewal) "Order is not a renewal"
  insist (order.currency.toUpper = currencyCode) "Wallet currently supports IRT products only"
  insist (order.targetClientId ≠ "") "Renewal target is missing"
  let paymentId ← look fun o _ => .ok o.fresh
  let renewed ← step (payRenewalTx owner orderId paymentId)
  if renewed then pure ()
  else orNote orderId (renewClient orderId order.targetClientId order)

/-! ## What the parts do -/

/-- The newest payment of an order is one of its payments. -/
theorem newestPayment_mem {s : Shop} {orderId : String} {pick : ℕ} {r : String × Payment}
    (h : s.newestPayment orderId pick = some r) :
    s.payments.get? r.1 = some r.2 ∧ r.2.orderId = orderId ∧
      ∀ r' ∈ s.paymentsOf orderId, r'.2.createdAt ≤ r.2.createdAt := by
  obtain ⟨hmem, hlast⟩ := newest_mem h
  obtain ⟨hrow, horder⟩ := List.mem_filter.mp hmem
  exact ⟨Table.get?_eq_some_iff.mpr hrow, by simpa using horder, hlast⟩

/-- The row of an order is read, or nothing happens. -/
theorem wp_orderTx {orderId owner message : String} {s : Shop} {q : Order → Shop → Prop}
    (hq : ∀ order, s.orders.get? orderId = some order → order.owner = owner → q order s) :
    (orderTx orderId owner message).wp q (fun _ _ => True) s := by
  simp only [orderTx, Tx.wp_bind, Tx.wp_read, Tx.wp_ofExcept]
  refine ⟨fun order horder => ?_, fun _ _ => trivial⟩
  have hrow := Option.filter_eq_some_iff.mp (found_eq_ok horder)
  exact hq order hrow.1 (by simpa using hrow.2)

/-! ## Threads that deliver -/

/-- A discipline under which orders may be delivered. -/
structure Delivers (d : Discipline Moment ShopAction Shop) : Prop where
  stage : ∀ identity client, (step (stageClient identity client)).Steady d
  note : ∀ orderId e, (noteFulfillment orderId e).Steady d
  deliver : ∀ orderId identity order now, (step (deliverTx orderId identity order now)).Steady d

section Delivers

variable {d : Discipline Moment ShopAction Shop} {orderId : String}

/-- Building the payload of a delivery keeps every discipline. -/
theorem steady_deliveryPayload : (deliveryPayload orderId).Steady d := by
  apply Script.Steady.bind steady_look
  intro order
  split
  · exact .pure
  · apply Script.Steady.bind steady_look
    intro _
    apply Script.Steady.bind steady_look
    intro _
    exact .bind steady_outside fun _ => .pure

/-- Producing a client keeps a discipline that delivers. -/
theorem Delivers.produceClient (h : Delivers d) {order : Order} {identity : String} {now : ℕ} :
    (produceClient orderId order identity now).Steady d := by
  apply Script.Steady.bind steady_look
  intro existing
  cases existing with
  | some saved =>
      apply Script.Steady.bind steady_insist
      intro _
      apply Script.Steady.bind steady_outside
      intro _
      exact .bind steady_look fun _ => .pure
  | none =>
      apply Script.Steady.bind (h.stage _ _)
      exact fun _ => .bind steady_outside fun _ => .pure

/-- A failure that is noted keeps a discipline that delivers. -/
theorem Delivers.orNote (h : Delivers d) {script : ShopScript Unit} (hscript : script.Steady d) :
    (orNote orderId script).Steady d := by
  apply hscript.handle
  intro e
  exact .bind (h.note orderId e) fun _ => .raise

/-- A production keeps a discipline that delivers. -/
theorem Delivers.produce (h : Delivers d) {order : Order} :
    (produce orderId order).Steady d := by
  apply Script.Steady.bind steady_look
  intro _
  apply Script.Steady.bind steady_look
  intro profile
  apply Script.Steady.bind steady_look
  intro now
  apply Script.Steady.bind (h.orNote h.produceClient)
  intro _
  apply Script.Steady.bind (h.deliver _ _ _ _)
  exact fun _ => steady_deliveryPayload

/-- An order may be delivered at any time. -/
theorem Delivers.provisionOrder (h : Delivers d) : (provisionOrder orderId).Steady d := by
  apply Script.Steady.bind steady_look
  intro order
  split
  · exact h.produce
  · apply Script.Steady.bind steady_look
    intro _
    apply Script.Steady.bind steady_look
    intro _
    exact steady_deliveryPayload

end Delivers

end Commerce
end DarkXray
