import Mathlib.Data.Set.Finite.Lemmas
import Mathlib.Data.Set.Finite.List
import DarkXray.Commerce.Checkout
import DarkXray.Library.Phases

/-!
# Payments through a gateway

The gateway reports the payment of an order in events, and redelivers an event until it
gets an answer.  The row of an event keeps it from being applied twice; it is written
before the event is applied, in a transaction of its own.

Main results:

- Theorem {lit}`passes_cryptoWebhook`: the phases of a delivery, from the row of its event
  to the payment of the order.
- Theorem {lit}`WebhookSystem.Sound.owed`: a paid event that has been recorded and not been
  applied is being applied by a delivery.
- Theorem {lit}`webhook_applied`: over every interleaving with crashes, unless one of them
  meets a delivery that applies the event.
-/

namespace DarkXray
namespace Commerce

open Library Policy

/-! ## Deliveries -/

/-- What an event reports. -/
inductive EventStatus where
  | paid
  | failed
  | expired
deriving DecidableEq, Repr

/-- A delivery of an event; {lit}`signed` says that its signature is the expected one. -/
structure Delivery where
  eventId : String
  status : EventStatus
  reference : String
  amountMinor : ℤ
  currency : String
  signed : Bool
deriving DecidableEq, Repr

/-- The event id that is stored. -/
def Delivery.event (d : Delivery) : String :=
  (d.eventId.take 160).toString

/-- The reference that is stored. -/
def Delivery.stored (d : Delivery) : String :=
  ((if d.reference = "" then d.event else d.reference).take 512).toString

/-- The insertion of an event; the result says whether it is new. -/
def insertEvent (owner gatewayId eventId orderId : String) (_ : Moment) : ShopTx Bool := do
  let known ← Tx.read fun s => s.gatewayEvents.get? (owner, gatewayId, eventId)
  match known with
  | some _ => return false
  | none => do
      Tx.write fun s => { s with
        gatewayEvents := s.gatewayEvents.insert (owner, gatewayId, eventId) ⟨false, orderId⟩ }
      return true

/-- The newest payment of the owner's order fails or expires, unless it is paid. -/
def Shop.failPayment (s : Shop) (owner orderId reference : String) (status : PaymentStatus)
    (pick : ℕ) : Shop :=
  match newest Payment.createdAt pick ((s.paymentsOf orderId).filter (·.2.owner = owner)) with
  | none => s
  | some pay => { s with
      payments := s.payments.update pay.1 fun r =>
        if r.status = .paid then r
        else { r with
          status := status
          externalRef := reference } }

/-- The transaction of a payment that has failed or expired. -/
def failTx (owner orderId reference : String) (payment : PaymentStatus) (terminal : OrderStatus)
    (o : Moment) : ShopTx Unit := do
  Tx.write fun s => s.failPayment owner orderId reference payment o.pick
  Tx.write fun s => s.updateOrder orderId fun r =>
    if r.owner = owner ∧ r.status ∈ [.pending, .awaitingPayment, .paymentReview] then
      { r with
        status := terminal
        paymentRef := reference
        updatedAt := o.now }
    else r

/-- A message is sent; whether that succeeds makes no difference. -/
def announce : ShopScript Unit :=
  Script.handle (do let _ ← outside) fun _ => pure ()

/-- An event is applied. -/
def applyEvent (owner orderId : String) (d : Delivery) : ShopScript Unit :=
  match d.status with
  | .paid => do
      let provisioned ← confirmPayment owner orderId d.stored
      if provisioned then announce else pure ()
  | .failed => do
      step (failTx owner orderId d.stored .failed .paymentRejected)
      announce
  | .expired => do
      step (failTx owner orderId d.stored .expired .cancelled)
      announce

/-- The row of an event is closed. -/
def closeEvent (owner gatewayId eventId : String) : ShopScript Unit :=
  step fun _ => Tx.write fun s => { s with
    gatewayEvents := s.gatewayEvents.update (owner, gatewayId, eventId) fun r =>
      { r with processed := true } }

/-- The steps of a delivery that have a name if the event is a paid one. -/
def Delivery.named (d : Delivery) (name : ShopAction) : ShopAction :=
  if d.status = .paid then name else .plain

/-- The row of an event that could not be applied is removed. -/
def dropEvent (owner gatewayId : String) (d : Delivery) : ShopScript Unit :=
  Script.perform (d.named .drop) <| commit fun _ => Tx.write fun s => { s with
    gatewayEvents := s.gatewayEvents.erase (owner, gatewayId, d.event) }

/-- What {lit}`crypto_webhook` does with a new event. -/
def processEvent (owner gatewayId orderId : String) (d : Delivery) : ShopScript Unit :=
  Script.handle
    (do
      applyEvent owner orderId d
      closeEvent owner gatewayId d.event)
    fun e => do
      dropEvent owner gatewayId d
      Script.raise e

/-- {lit}`crypto_webhook`; the result says whether the event is a duplicate. -/
def cryptoWebhook (owner gatewayId orderId : String) (d : Delivery) : ShopScript Bool := do
  let enabled ← look fun _ s => .ok (s.gateways.get? (owner, gatewayId))
  insist (enabled = some true) "Crypto gateway not found or disabled"
  let _ ← outside
  insist (d.signed = true) "Crypto webhook signature is invalid"
  insist (d.event ≠ "" ∧ orderId ≠ "") "Crypto webhook fields are invalid"
  let order ← readOrder orderId owner
  insist (order.gatewayId = gatewayId) "Crypto webhook gateway does not match order"
  insist (d.amountMinor = order.amountMinor ∧ d.currency.toUpper = order.currency.toUpper)
    "Crypto webhook amount or currency does not match order"
  let new ← Script.perform (d.named .event)
    (commit (insertEvent owner gatewayId d.event orderId))
  if new then do
    processEvent owner gatewayId orderId d
    return false
  else return true

/-! ## What is paid stays paid -/

/-- The order is paid or delivered. -/
abbrev Order.Settled (o : Order) : Prop :=
  o.status ∈ [OrderStatus.paid, .provisioned, .provisionedWaitingActivation]

/-- The order is paid or delivered, and its newest payment is paid. -/
abbrev Shop.Paid (s : Shop) (orderId : String) : Prop :=
  (∃ o ∈ s.orders.get? orderId, o.Settled) ∧
    ∃ r ∈ s.paymentsOf orderId,
      (∀ r' ∈ s.paymentsOf orderId, r'.2.createdAt ≤ r.2.createdAt) ∧ r.2.status = .paid

/-- An order with a payment. -/
structure Shop.Payable (s : Shop) (orderId : String) : Prop where
  order : ∃ o, s.orders.get? orderId = some o
  payments : s.paymentsOf orderId ≠ []

/-- Later orders: what is settled stays so. -/
def OrdersLater (orders orders' : Table String Order) (orderId : String) : Prop :=
  ∀ o, orders.get? orderId = some o →
    ∃ o', orders'.get? orderId = some o' ∧ (o.Settled → o'.Settled)

/-- A later payment: what is paid stays so. -/
structure Payment.Later (r r' : Payment) : Prop where
  orderId : r'.orderId = r.orderId
  createdAt : r'.createdAt = r.createdAt
  paid : r.status = .paid → r' = r

/-- Later payments: none is added or lost. -/
structure PaymentsLater (payments payments' : Table String Payment) : Prop where
  next : ∀ id r, payments.get? id = some r → ∃ r', payments'.get? id = some r' ∧ r.Later r'
  last : ∀ id r', payments'.get? id = some r' → ∃ r, payments.get? id = some r ∧ r.Later r'

/-- What a transaction may do to the order and the payments. -/
structure Receives (orderId : String) (s t : Shop) : Prop where
  orders : OrdersLater s.orders t.orders orderId
  payments : PaymentsLater s.payments t.payments

section Later

variable {s t u : Shop} {orderId : String} {payments : Table String Payment}

/-- A payment is later than itself. -/
theorem Payment.Later.refl (r : Payment) : r.Later r :=
  ⟨rfl, rfl, fun _ => rfl⟩

/-- Payments are later than themselves. -/
theorem PaymentsLater.refl (payments : Table String Payment) :
    PaymentsLater payments payments :=
  ⟨fun _ r hr => ⟨r, hr, .refl r⟩, fun _ r hr => ⟨r, hr, .refl r⟩⟩

/-- Orders are later than themselves. -/
theorem OrdersLater.refl (orders : Table String Order) : OrdersLater orders orders orderId :=
  fun o ho => ⟨o, ho, id⟩

/-- No change receives nothing. -/
theorem Receives.refl (s : Shop) : Receives orderId s s :=
  ⟨.refl _, .refl _⟩

/-- Being later is transitive. -/
theorem Payment.Later.trans {a b c : Payment} (h : a.Later b) (h' : b.Later c) : a.Later c where
  orderId := h'.orderId.trans h.orderId
  createdAt := h'.createdAt.trans h.createdAt
  paid hpaid := by
    have hsame := h.paid hpaid
    rw [h'.paid (hsame ▸ hpaid), hsame]

/-- Being later is transitive. -/
theorem PaymentsLater.trans {a b c : Table String Payment} (h : PaymentsLater a b)
    (h' : PaymentsLater b c) : PaymentsLater a c where
  next id r hr := by
    obtain ⟨r', hr', hlater⟩ := h.next id r hr
    obtain ⟨r'', hr'', hlater'⟩ := h'.next id r' hr'
    exact ⟨r'', hr'', hlater.trans hlater'⟩
  last id r'' hr'' := by
    obtain ⟨r', hr', hlater'⟩ := h'.last id r'' hr''
    obtain ⟨r, hr, hlater⟩ := h.last id r' hr'
    exact ⟨r, hr, hlater.trans hlater'⟩

/-- Changes that receive a payment compose. -/
theorem Receives.trans (h : Receives orderId s t) (h' : Receives orderId t u) :
    Receives orderId s u where
  orders o ho := by
    obtain ⟨o', ho', hsettled⟩ := h.orders o ho
    obtain ⟨o'', ho'', hsettled'⟩ := h'.orders o' ho'
    exact ⟨o'', ho'', hsettled' ∘ hsettled⟩
  payments := h.payments.trans h'.payments

/-- The payments of an order, before and after. -/
theorem PaymentsLater.mem_next (h : PaymentsLater s.payments t.payments)
    {r : String × Payment} (hr : r ∈ s.paymentsOf orderId) :
    ∃ r' ∈ t.paymentsOf orderId, r.2.Later r'.2 := by
  obtain ⟨hrow, horder⟩ := List.mem_filter.mp hr
  obtain ⟨r', hr', hlater⟩ := h.next r.1 r.2 (Table.get?_eq_some_iff.mpr hrow)
  refine ⟨(r.1, r'), List.mem_filter.mpr ⟨Table.get?_eq_some_iff.mp hr', ?_⟩, hlater⟩
  simpa [hlater.orderId] using horder

/-- A later payment of an order has an earlier one behind it. -/
theorem PaymentsLater.mem_last (h : PaymentsLater s.payments t.payments)
    {r' : String × Payment} (hr' : r' ∈ t.paymentsOf orderId) :
    ∃ r ∈ s.paymentsOf orderId, r.2.Later r'.2 := by
  obtain ⟨hrow, horder⟩ := List.mem_filter.mp hr'
  obtain ⟨r, hr, hlater⟩ := h.last r'.1 r'.2 (Table.get?_eq_some_iff.mpr hrow)
  refine ⟨(r'.1, r), List.mem_filter.mpr ⟨Table.get?_eq_some_iff.mp hr, ?_⟩, hlater⟩
  simpa [hlater.orderId] using horder

/-- What is paid stays paid. -/
theorem Receives.paid (h : Receives orderId s t) (hs : s.Paid orderId) : t.Paid orderId := by
  obtain ⟨⟨o, ho, hsettled⟩, r, hr, hnewest, hpaid⟩ := hs
  obtain ⟨o', ho', hlater⟩ := h.orders o ho
  obtain ⟨r', hr', hrow⟩ := h.payments.mem_next hr
  refine ⟨⟨o', ho', hlater hsettled⟩, r', hr', ?_, ?_⟩
  · intro r'' hr''
    obtain ⟨r₀, hr₀, hrow'⟩ := h.payments.mem_last hr''
    rw [hrow'.createdAt, hrow.createdAt]
    exact hnewest r₀ hr₀
  · rw [hrow.paid hpaid, hpaid]

/-- The newest payment of a settled order becomes paid. -/
theorem paid_of_newest {id : String} {r r' : Payment} (h : PaymentsLater s.payments t.payments)
    (hr : s.payments.get? id = some r) (horder : r.orderId = orderId)
    (hnewest : ∀ r'' ∈ s.paymentsOf orderId, r''.2.createdAt ≤ r.createdAt)
    (hr' : t.payments.get? id = some r') (hsettled : ∃ o ∈ t.orders.get? orderId, o.Settled)
    (hpaid : r'.status = .paid) : t.Paid orderId := by
  obtain ⟨r'', hr'', hlater⟩ := h.next id r hr
  rw [hr'] at hr''
  cases hr''
  refine ⟨hsettled, (id, r'), List.mem_filter.mpr ⟨Table.get?_eq_some_iff.mp hr', ?_⟩, ?_, hpaid⟩
  · simpa [hlater.orderId] using horder
  · intro r'' hr''
    obtain ⟨r₀, hr₀, hrow⟩ := h.mem_last hr''
    rw [hrow.createdAt, hlater.createdAt]
    exact hnewest r₀ hr₀

/-- An order that can be paid stays so. -/
theorem Receives.payable (h : Receives orderId s t) (hs : s.Payable orderId) :
    t.Payable orderId := by
  obtain ⟨o, ho⟩ := hs.order
  obtain ⟨o', ho', -⟩ := h.orders o ho
  obtain ⟨r, hr⟩ := List.exists_mem_of_ne_nil _ hs.payments
  obtain ⟨r', hr', -⟩ := h.payments.mem_next hr
  exact ⟨⟨o', ho'⟩, List.ne_nil_of_mem hr'⟩

/-- A change of an order that does not unsettle it. -/
theorem OrdersLater.update {orders : Table String Order} {id : String} {f : Order → Order}
    (hf : ∀ o, o.Settled → (f o).Settled) : OrdersLater orders (orders.update id f) orderId := by
  intro o ho
  rw [Table.get?_update, ho]
  by_cases hid : orderId = id
  · exact ⟨f o, if_pos hid, hf o⟩
  · exact ⟨o, if_neg hid, fun h => h⟩

/-- A change of a payment that is not paid yet. -/
theorem PaymentsLater.update {id : String} {f : Payment → Payment}
    (hf : ∀ r : Payment, r.Later (f r)) :
    PaymentsLater payments (payments.update id f) where
  next id' r hr := by
    rw [Table.get?_update, hr]
    by_cases hid : id' = id
    · exact ⟨f r, if_pos hid, hf r⟩
    · exact ⟨r, if_neg hid, .refl r⟩
  last id' r' hr' := by
    rw [Table.get?_update] at hr'
    split at hr'
    · obtain ⟨r, hr, rfl⟩ := Option.map_eq_some_iff.mp hr'
      exact ⟨r, hr, hf r⟩
    · exact ⟨r', hr', .refl r'⟩

/-- A payment that is changed unless it is paid is later. -/
theorem later_unlessPaid {f : Payment → Payment} (horder : ∀ r, (f r).orderId = r.orderId)
    (hcreated : ∀ r, (f r).createdAt = r.createdAt) (r : Payment) :
    r.Later (if r.status = .paid then r else f r) := by
  split
  · exact .refl r
  · rename_i hpaid
    exact ⟨horder r, hcreated r, fun h => (hpaid h).elim⟩

/-- Among some rows there is a newest one. -/
theorem exists_newest {ρ : Type} {createdAt : ρ → ℕ} {pick : ℕ} {rows : List (String × ρ)}
    (h : rows ≠ []) : ∃ r, newest createdAt pick rows = some r := by
  obtain ⟨r, hr, hlast⟩ := Set.exists_max_image {r | r ∈ rows} (fun r => createdAt r.2)
    rows.finite_toSet (List.exists_mem_of_ne_nil _ h)
  have hmem : r ∈ rows.filter fun r => rows.all fun r' => createdAt r'.2 ≤ createdAt r.2 := by
    refine List.mem_filter.mpr ⟨hr, List.all_eq_true.mpr fun r' hr' => ?_⟩
    exact decide_eq_true (hlast r' hr')
  have hindex := Nat.mod_lt pick (List.length_pos_of_mem hmem)
  exact ⟨_, List.getElem?_eq_getElem hindex⟩

end Later

/-! ## The phases of a delivery -/

/-- The event has been recorded. -/
def Shop.Recorded (s : Shop) (owner gatewayId eventId : String) : Prop :=
  s.gatewayEvents.get? (owner, gatewayId, eventId) ≠ none

instance (s : Shop) (owner gatewayId eventId : String) :
    Decidable (s.Recorded owner gatewayId eventId) :=
  inferInstanceAs (Decidable (¬_ = _))

/-- A step that records no event. -/
structure Quiet (orderId : String) (s t : Shop) : Prop extends Receives orderId s t where
  events : ∀ key, s.gatewayEvents.get? key = none → t.gatewayEvents.get? key = none

/-- Scripts that record no event. -/
def quietDiscipline (orderId : String) : Discipline Moment ShopAction Shop where
  inv s := s.Payable orderId
  step := Quiet orderId
  rel := Quiet orderId
  ok _ _ _ := True
  refl s := ⟨.refl s, fun _ h => h⟩
  sub _ _ h := h
  trans _ _ _ h h' := ⟨h.toReceives.trans h'.toReceives, fun key hnone => h'.events key (h.events key hnone)⟩

/-- A delivery has not recorded its event, or it is applying it, or the event has been
applied. -/
inductive DeliveryPhase where
  | fresh
  | applying
  | applied
deriving DecidableEq

/-- A step of a delivery: a paid event is recorded only by a delivery that applies it from
then on, and that delivery removes it again unless the order is paid. -/
structure WebhookStep (owner gatewayId orderId : String) (kind : String → EventStatus)
    (d : Delivery) (g g' : DeliveryPhase) (s t : Shop) : Prop where
  receives : Receives orderId s t
  events : ∀ eventId, kind eventId = .paid → t.Recorded owner gatewayId eventId →
    ¬t.Paid orderId → g' = .applying ∧ d.event = eventId ∨
      s.Recorded owner gatewayId eventId ∧ ¬(g = .applying ∧ d.event = eventId)

/-- Deliveries of events of one order; {lit}`kind` says what each event reports.  A paid
event that has been recorded is owed as long as the order is not paid. -/
def webhookPhases (owner gatewayId orderId : String) (kind : String → EventStatus) :
    Phases Delivery Moment ShopAction Shop DeliveryPhase String where
  inv s := s.Payable orderId
  claim g s := g = .applied → s.Paid orderId
  may g name := g = .applying → name = .confirm ∨ name = .drop
  ok d name o s :=
    (name = .event → kind d.event = .paid → s.Recorded owner gatewayId d.event → s.Paid orderId) ∧
      (name = .drop → o.raised = none)
  step := WebhookStep owner gatewayId orderId kind
  debt eventId s := kind eventId = .paid ∧ s.Recorded owner gatewayId eventId ∧ ¬s.Paid orderId
  covers d g eventId := g = .applying ∧ d.event = eventId
  claim_later _ _ _ _ _ _ hstep hpaid happlied := hstep.receives.paid (hpaid happlied)
  settled d g g' s t eventId hstep hdebt := by
    obtain ⟨hkind, hrecorded, hunpaid⟩ := hdebt
    refine (hstep.events eventId hkind hrecorded hunpaid).imp_right fun hold => ?_
    exact ⟨⟨hkind, hold.1, fun hpaid => hunpaid (hstep.receives.paid hpaid)⟩, hold.2⟩

section Transactions

variable {α : Type} {owner gatewayId orderId : String} {s : Shop} {o : Moment}

/-- A transaction that only writes, and records no event. -/
theorem quiet_write {name : ShopAction} {f : Moment → Shop → Shop}
    (hf : ∀ o s, Quiet orderId s (f o s)) :
    (Script.perform name (commit fun o => Tx.write (f o))).Steady (quietDiscipline orderId) :=
  steady_commit fun o s hs _ => ⟨(hf o s).payable hs, hf o s⟩

/-- Quiet steps deliver. -/
theorem delivers_quiet : Delivers (quietDiscipline orderId) where
  stage identity client := by
    apply steady_step
    intro o s hs
    simp only [stageClient, demandPolicy, Tx.wp_bind, Tx.wp_read, Tx.wp_require, Tx.wp_write]
    have hsame : Quiet orderId s { s with managed := s.managed.insert identity client } :=
      ⟨⟨.refl _, .refl _⟩, fun _ h => h⟩
    exact ⟨fun _ => ⟨hsame.payable hs, hsame⟩, fun _ => trivial⟩
  note id e := by
    apply quiet_write
    intro o s
    refine ⟨⟨?_, .refl _⟩, fun _ h => h⟩
    rw [updateOrder_orders]
    exact .update fun _ h => h
  deliver id identity order now := by
    apply quiet_write
    intro o s
    refine ⟨⟨?_, .refl _⟩, fun _ h => h⟩
    rw [updateOrder_orders]
    apply OrdersLater.update
    intro o' _
    cases order.firstConnection with
    | true => simp [Order.Settled]
    | false => simp [Order.Settled]

/-- A confirmation pays the order and its newest payment. -/
theorem wp_confirmTx_paid {reference : String} (hs : s.Payable orderId) :
    (confirmTx orderId reference o).wp (fun _ t => Receives orderId s t ∧ t.Paid orderId)
      (fun _ _ => True) s := by
  obtain ⟨order, horder⟩ := hs.order
  have hnewest : ∃ pay, s.newestPayment orderId o.pick = some pay := exists_newest hs.payments
  obtain ⟨pay, hpay⟩ := hnewest
  obtain ⟨hrow, hpayment, hlast⟩ := newestPayment_mem hpay
  have hread : (s.updateOrder orderId fun r =>
      { r with
        status := .paid
        paymentRef := (reference.take 256).toString
        updatedAt := o.now }).newestPayment orderId o.pick = some pay := hpay
  simp only [confirmTx, Tx.wp_bind, Tx.wp_write, Tx.wp_read, hread]
  have horders : OrdersLater s.orders (s.orders.update orderId fun r =>
      { r with
        status := .paid
        paymentRef := (reference.take 256).toString
        updatedAt := o.now }) orderId :=
    .update fun _ _ => by simp [Order.Settled]
  have hpayments : PaymentsLater s.payments (s.payments.update pay.1 fun r =>
      if r.status = .paid then r
      else { r with
        status := .paid
        externalRef := (reference.take 1024).toString }) :=
    .update (later_unlessPaid (fun _ => rfl) fun _ => rfl)
  have hget : (s.payments.update pay.1 fun r =>
      if r.status = .paid then r
      else { r with
        status := .paid
        externalRef := (reference.take 1024).toString }).get? pay.1 =
      some (if pay.2.status = .paid then pay.2
      else { pay.2 with
        status := .paid
        externalRef := (reference.take 1024).toString }) := by
    rw [Table.get?_update, if_pos rfl, hrow, Option.map_some]
  have hsettled : ∃ o' ∈ (s.orders.update orderId fun r =>
      { r with
        status := .paid
        paymentRef := (reference.take 256).toString
        updatedAt := o.now }).get? orderId, o'.Settled := by
    rw [Table.get?_update, if_pos rfl, horder]
    exact ⟨_, rfl, by simp [Order.Settled]⟩
  refine ⟨⟨horders, hpayments⟩, ?_⟩
  apply paid_of_newest hpayments hrow hpayment hlast hget hsettled
  split
  · rename_i hpaid
    exact hpaid
  · rfl

/-- A failed payment changes nothing that is paid. -/
theorem later_failPayment {reference : String} {status : PaymentStatus} {pick : ℕ} :
    PaymentsLater s.payments (s.failPayment owner orderId reference status pick).payments := by
  unfold Shop.failPayment
  split
  · exact .refl _
  · dsimp only
    apply PaymentsLater.update
    apply later_unlessPaid
    · exact fun _ => rfl
    · exact fun _ => rfl

/-- A failed payment leaves the orders. -/
theorem failPayment_orders {id reference : String} {status : PaymentStatus} {pick : ℕ} :
    (s.failPayment owner id reference status pick).orders = s.orders := by
  unfold Shop.failPayment
  split
  · rfl
  · rfl

/-- A failed payment leaves the events. -/
theorem failPayment_events {id reference : String} {status : PaymentStatus} {pick : ℕ} :
    (s.failPayment owner id reference status pick).gatewayEvents = s.gatewayEvents := by
  unfold Shop.failPayment
  split
  · rfl
  · rfl

/-- A failed payment is quiet. -/
theorem steady_failTx {reference : String} {payment : PaymentStatus} {terminal : OrderStatus} :
    (step (failTx owner orderId reference payment terminal)).Steady
      (quietDiscipline orderId) := by
  apply steady_step
  intro o s hs
  simp only [failTx, Tx.wp_bind, Tx.wp_write]
  have hreceives : Quiet orderId s
      ((s.failPayment owner orderId reference payment o.pick).updateOrder orderId fun r =>
        if r.owner = owner ∧ r.status ∈ [.pending, .awaitingPayment, .paymentReview] then
          { r with
            status := terminal
            paymentRef := reference
            updatedAt := o.now }
        else r) := by
    refine ⟨⟨?_, later_failPayment⟩, fun key hnone => ?_⟩
    · rw [updateOrder_orders, failPayment_orders]
      apply OrdersLater.update
      intro order hsettled
      split
      · rename_i hopen
        simp only [Order.Settled, List.mem_cons, List.not_mem_nil, or_false] at hsettled hopen
        rcases hsettled with h | h | h
        all_goals simp [h] at hopen
      · exact hsettled
    · dsimp only [Shop.updateOrder]
      rw [failPayment_events, hnone]
  exact ⟨hreceives.payable hs, hreceives⟩

end Transactions

section Scripts

variable {α β : Type} {owner gatewayId orderId : String} {kind : String → EventStatus}
  {d : Delivery} {g : DeliveryPhase} {s : Shop}

/-- An announcement keeps every discipline. -/
theorem steady_announce {D : Discipline Moment ShopAction Shop} : announce.Steady D :=
  .handle (.bind steady_outside fun _ => .pure) fun _ => .pure

/-- Closing an event is quiet. -/
theorem steady_closeEvent {eventId : String} :
    (closeEvent owner gatewayId eventId).Steady (quietDiscipline orderId) := by
  apply quiet_write
  refine fun _ s => ⟨⟨.refl _, .refl _⟩, fun key hnone => ?_⟩
  dsimp only
  rw [Table.get?_update, hnone]
  split
  · rfl
  · rfl

/-- Dropping an event is quiet. -/
theorem steady_dropEvent :
    (dropEvent owner gatewayId d).Steady (quietDiscipline orderId) := by
  apply quiet_write
  refine fun _ s => ⟨⟨.refl _, .refl _⟩, fun key hnone => ?_⟩
  dsimp only
  rw [Table.get?_erase, hnone]
  split
  · rfl
  · rfl

/-! ### Transactions and phases -/

/-- A step that records no event leaves a delivery in its phase. -/
theorem Quiet.webhookStep {t : Shop} (h : Quiet orderId s t) :
    WebhookStep owner gatewayId orderId kind d g g s t where
  receives := h.toReceives
  events eventId _ hrecorded _ := by
    have hold : s.Recorded owner gatewayId eventId :=
      fun hnone => hrecorded (h.events _ hnone)
    by_cases hcovers : g = .applying ∧ d.event = eventId
    · exact .inl hcovers
    · exact .inr ⟨hold, hcovers⟩

/-- A transaction takes a delivery to another phase; if it raises, nothing has happened. -/
theorem passes_commit {name : ShopAction} {body : Moment → ShopTx α}
    {q : DeliveryPhase → α → Prop} {r : DeliveryPhase → Failure → Prop}
    (hmay : g = .applying → name = .confirm ∨ name = .drop)
    (h : ∀ o s, s.Payable orderId → (g = .applied → s.Paid orderId) →
      (webhookPhases owner gatewayId orderId kind).ok d name o s →
      (body o).wp (fun a t => ∃ g', (g' = .applied → t.Paid orderId) ∧
        WebhookStep owner gatewayId orderId kind d g g' s t ∧ q g' a) (fun e _ => r g e) s)
    (hr : ∀ o s e, (webhookPhases owner gatewayId orderId kind).ok d name o s →
      o.raised = some e → r g e) :
    (Script.perform name (commit body)).Passes (webhookPhases owner gatewayId orderId kind)
      d q r g := by
  apply Script.Passes.perform hmay
  intro o s hs hg ho
  have hsame : WebhookStep owner gatewayId orderId kind d g g s s :=
    Quiet.webhookStep ⟨.refl s, fun _ h => h⟩
  rw [wp_commit]
  apply Tx.wp_mono (h o s hs hg ho)
  · rintro a t ⟨g', hclaim, hstep, hq⟩
    exact ⟨fun _ => ⟨g', hstep.receives.payable hs, hclaim, hstep, hq⟩,
      fun e he => ⟨g, hs, hg, hsame, hr o s e ho he⟩⟩
  · exact fun e _ he => ⟨g, hs, hg, hsame, he⟩

/-- Scripts that record no event leave a delivery in its phase, except in the one in which
it applies its event. -/
theorem passes_quiet {p : ShopScript α} (h : p.Steady (quietDiscipline orderId))
    (hg : g ≠ .applying) :
    p.Passes (webhookPhases owner gatewayId orderId kind) d (fun g' _ => g' = g)
      (fun g' _ => g' = g) g := by
  apply h.passes
  · exact fun _ hs => hs
  · exact fun _ _ _ => trivial
  · exact fun _ happlying => (hg happlying).elim
  · exact fun s t _ hclaim ht hst =>
      ⟨ht, fun happlied => hst.paid (hclaim happlied), hst.webhookStep⟩

/-- A quiet part may come first. -/
theorem passes_then {p : ShopScript α} {f : α → ShopScript β} {q : DeliveryPhase → β → Prop}
    {r : DeliveryPhase → Failure → Prop} (h : p.Steady (quietDiscipline orderId))
    (hg : g ≠ .applying) (hr : ∀ e, r g e)
    (hf : ∀ a, (f a).Passes (webhookPhases owner gatewayId orderId kind) d q r g) :
    (p >>= f).Passes (webhookPhases owner gatewayId orderId kind) d q r g := by
  have hp : p.Passes (webhookPhases owner gatewayId orderId kind) d (fun g' _ => g' = g) r g := by
    apply (passes_quiet h hg).mono
    · exact fun _ _ h => h
    · rintro _ e rfl
      exact hr e
  apply hp.bind
  rintro _ a rfl
  exact hf a

/-! ### Deliveries of paid events -/

/-- A confirmation that returns has paid the order; one that raises has been the last to
know of the event. -/
theorem passes_confirmPayment {reference : String} :
    (confirmPayment owner orderId reference).Passes (webhookPhases owner gatewayId orderId kind) d
      (fun g _ => g = .applied) (fun g _ => g ≠ .fresh) .applying := by
  have hread : (readOrderAs .confirm orderId owner).Passes
      (webhookPhases owner gatewayId orderId kind) d (fun g _ => g = .applying)
      (fun g _ => g ≠ .fresh) .applying := by
    apply passes_commit
    · exact fun _ => .inl rfl
    · intro o s _ hclaim _
      simp only [Tx.wp_bind, Tx.wp_read, Tx.wp_ofExcept]
      refine ⟨fun _ _ => ⟨.applying, hclaim, ?_, rfl⟩, fun _ _ h => by cases h⟩
      exact Quiet.webhookStep ⟨.refl s, fun _ h => h⟩
    · exact fun _ _ _ _ _ h => by cases h
  apply hread.bind
  rintro _ order rfl
  have hinsist : (insist (order.status ∈ [.awaitingPayment, .paymentReview, .paid])
      "Order is not awaiting payment confirmation").Passes
      (webhookPhases owner gatewayId orderId kind) d (fun g _ => g = .applying)
      (fun g _ => g ≠ .fresh) .applying :=
    .ofExcept (fun _ _ => rfl) fun _ _ h => by cases h
  apply hinsist.bind
  rintro _ _ rfl
  have hconfirm : (Script.perform .confirm (commit (confirmTx orderId reference))).Passes
      (webhookPhases owner gatewayId orderId kind) d (fun g _ => g = .applied)
      (fun g _ => g ≠ .fresh) .applying := by
    apply passes_commit
    · exact fun _ => .inl rfl
    · intro o s hs _ _
      apply Tx.wp_mono (wp_confirmTx_paid hs)
      · exact fun _ t ht => ⟨.applied, fun _ => ht.2, ⟨ht.1, fun _ _ _ h => (h ht.2).elim⟩, rfl⟩
      · exact fun _ _ _ h => by cases h
    · exact fun _ _ _ _ _ h => by cases h
  apply hconfirm.bind
  rintro _ _ rfl
  apply Script.Passes.mono (passes_quiet _ _)
  · exact fun _ _ h => h
  · rintro _ _ rfl h
    cases h
  · apply Script.Steady.handle
    · apply Script.Steady.bind delivers_quiet.provisionOrder
      exact fun _ => .bind steady_look fun _ => .pure
    · exact fun _ => .pure
  · decide

/-- A paid event that has been applied has paid the order. -/
theorem passes_applyEvent (hstatus : d.status = .paid) :
    (applyEvent owner orderId d).Passes (webhookPhases owner gatewayId orderId kind) d
      (fun g _ => g = .applied) (fun g _ => g ≠ .fresh) .applying := by
  simp only [applyEvent, hstatus]
  apply passes_confirmPayment.bind
  rintro _ provisioned rfl
  apply Script.Passes.mono (passes_quiet _ _)
  · exact fun _ _ h => h
  · rintro _ _ rfl h
    cases h
  · split
    · exact steady_announce
    · exact .pure
  · decide

/-- The row of an event is removed, unless the order is paid. -/
theorem passes_dropEvent (hstatus : d.status = .paid) (hg : g ≠ .fresh) :
    (dropEvent owner gatewayId d).Passes (webhookPhases owner gatewayId orderId kind) d
      (fun g _ => g ≠ .applying) (fun g _ => g ≠ .applying) g := by
  have hname : d.named .drop = .drop := if_pos hstatus
  unfold dropEvent
  rw [hname]
  apply passes_commit
  · exact fun _ => .inr rfl
  · intro o s _ hclaim _
    have hquiet : Quiet orderId s { s with
        gatewayEvents := s.gatewayEvents.erase (owner, gatewayId, d.event) } := by
      refine ⟨⟨.refl _, .refl _⟩, fun key hnone => ?_⟩
      dsimp only
      rw [Table.get?_erase, hnone]
      split
      · rfl
      · rfl
    rw [Tx.wp_write]
    cases g with
    | fresh => exact (hg rfl).elim
    | applying =>
        refine ⟨.fresh, (fun h => by cases h), ⟨hquiet.toReceives, ?_⟩, fun h => by cases h⟩
        intro eventId _ hrecorded _
        have hother : eventId ≠ d.event := by
          rintro rfl
          exact hrecorded (by simp)
        refine .inr ⟨fun hnone => hrecorded (hquiet.events _ hnone), ?_⟩
        exact fun h => hother h.2.symm
    | applied => exact ⟨.applied, hclaim, hquiet.webhookStep, fun h => by cases h⟩
  · intro o _ e hok hraised
    rw [hok.2 rfl] at hraised
    cases hraised

/-- A paid event that is processed has paid the order; otherwise its row is gone. -/
theorem passes_processEvent (hstatus : d.status = .paid) :
    (processEvent owner gatewayId orderId d).Passes (webhookPhases owner gatewayId orderId kind) d
      (fun g _ => g = .applied) (fun g _ => g ≠ .applying) .applying := by
  have happly : (do
      applyEvent owner orderId d
      closeEvent owner gatewayId d.event : ShopScript Unit).Passes
        (webhookPhases owner gatewayId orderId kind) d (fun g _ => g = .applied)
        (fun g _ => g ≠ .fresh) .applying := by
    apply (passes_applyEvent hstatus).bind
    rintro _ _ rfl
    apply (passes_quiet steady_closeEvent (by decide)).mono
    · exact fun _ _ h => h
    · rintro _ _ rfl h
      cases h
  apply happly.handle
  intro g e hg
  apply (passes_dropEvent hstatus hg).bind
  exact fun _ _ hend => hend

/-- The insertion of a paid event: it is new, or the order has been paid. -/
theorem passes_insertEvent (hkind : d.status = kind d.event) (hstatus : d.status = .paid) :
    (Script.perform (d.named .event) (commit (insertEvent owner gatewayId d.event orderId))).Passes
      (webhookPhases owner gatewayId orderId kind) d
      (fun g new => g = if new then .applying else .applied) (fun g _ => g ≠ .applying) .fresh := by
  have hname : d.named .event = .event := if_pos hstatus
  rw [hname]
  apply passes_commit
  · exact fun h => by cases h
  · intro o s _ _ hok
    simp only [insertEvent, Tx.wp_bind, Tx.wp_read]
    cases hrow : s.gatewayEvents.get? (owner, gatewayId, d.event) with
    | some row =>
        have hrecorded : s.Recorded owner gatewayId d.event := by simp [Shop.Recorded, hrow]
        have hpaid : s.Paid orderId := hok.1 rfl (hkind.symm.trans hstatus) hrecorded
        exact ⟨.applied, fun _ => hpaid, ⟨.refl s, fun _ _ _ h => (h hpaid).elim⟩, rfl⟩
    | none =>
        refine ⟨.applying, (fun h => by cases h), ⟨⟨.refl _, .refl _⟩, ?_⟩, rfl⟩
        intro eventId _ hrecorded _
        by_cases hsame : d.event = eventId
        · exact .inl ⟨rfl, hsame⟩
        · refine .inr ⟨fun hnone => hrecorded ?_, fun h => hsame h.2⟩
          dsimp only
          rw [Table.get?_insert hrow, if_neg, hnone]
          simpa [eq_comm] using hsame
  · exact fun _ _ _ _ _ h => by cases h

/-! ### Other deliveries -/

/-- An event that reports no payment is quiet. -/
theorem steady_processEvent (hstatus : d.status ≠ .paid) :
    (processEvent owner gatewayId orderId d).Steady (quietDiscipline orderId) := by
  have happly : (applyEvent owner orderId d).Steady (quietDiscipline orderId) := by
    cases hevent : d.status with
    | paid => exact (hstatus hevent).elim
    | failed =>
        simp only [applyEvent, hevent]
        exact .bind steady_failTx fun _ => steady_announce
    | expired =>
        simp only [applyEvent, hevent]
        exact .bind steady_failTx fun _ => steady_announce
  apply Script.Steady.handle
  · exact .bind happly fun _ => steady_closeEvent
  · exact fun _ => .bind steady_dropEvent fun _ => .raise

/-- Other events are recorded, too, but they are not owed. -/
theorem passes_insertOther (hkind : d.status = kind d.event) (hstatus : d.status ≠ .paid) :
    (Script.perform (d.named .event) (commit (insertEvent owner gatewayId d.event orderId))).Passes
      (webhookPhases owner gatewayId orderId kind) d
      (fun g _ => g = .fresh) (fun g _ => g ≠ .applying) .fresh := by
  apply passes_commit
  · exact fun h => by cases h
  · intro o s _ _ _
    simp only [insertEvent, Tx.wp_bind, Tx.wp_read]
    cases hrow : s.gatewayEvents.get? (owner, gatewayId, d.event) with
    | some row =>
        refine ⟨.fresh, (fun h => by cases h), ?_, rfl⟩
        exact Quiet.webhookStep ⟨.refl s, fun _ h => h⟩
    | none =>
        refine ⟨.fresh, (fun h => by cases h), ⟨⟨.refl _, .refl _⟩, ?_⟩, rfl⟩
        intro eventId hpaid hrecorded _
        have hother : eventId ≠ d.event := by
          rintro rfl
          exact hstatus (hkind.trans hpaid)
        refine .inr ⟨fun hnone => hrecorded ?_, fun h => by cases h.1⟩
        dsimp only
        rw [Table.get?_insert hrow, if_neg, hnone]
        simpa using hother
  · exact fun _ _ _ _ _ h => by cases h

/-- A delivery that is answered is not applying its event, and if that is a paid one, it
has been applied. -/
theorem passes_cryptoWebhook (hkind : d.status = kind d.event) :
    (cryptoWebhook owner gatewayId orderId d).Passes (webhookPhases owner gatewayId orderId kind) d
      (fun g _ => g ≠ .applying ∧ (d.status = .paid → g = .applied))
      (fun g _ => g ≠ .applying) .fresh := by
  have hfresh : DeliveryPhase.fresh ≠ .applying := by decide
  apply passes_then steady_look hfresh fun _ => hfresh
  intro enabled
  apply passes_then steady_insist hfresh fun _ => hfresh
  intro _
  apply passes_then steady_outside hfresh fun _ => hfresh
  intro _
  apply passes_then steady_insist hfresh fun _ => hfresh
  intro _
  apply passes_then steady_insist hfresh fun _ => hfresh
  intro _
  apply passes_then steady_look hfresh fun _ => hfresh
  intro order
  apply passes_then steady_insist hfresh fun _ => hfresh
  intro _
  apply passes_then steady_insist hfresh fun _ => hfresh
  intro _
  by_cases hstatus : d.status = EventStatus.paid
  · apply (passes_insertEvent hkind hstatus).bind
    rintro _ new rfl
    cases new with
    | true =>
        apply (passes_processEvent hstatus).bind
        rintro _ _ rfl
        exact ⟨by decide, fun _ => rfl⟩
    | false => exact ⟨by decide, fun _ => rfl⟩
  · apply (passes_insertOther hkind hstatus).bind
    rintro _ new rfl
    cases new with
    | true =>
        apply passes_then (steady_processEvent hstatus) hfresh fun _ => hfresh
        exact fun _ => ⟨hfresh, fun h => (hstatus h).elim⟩
    | false => exact ⟨hfresh, fun h => (hstatus h).elim⟩

end Scripts

/-! ## Events of failed payments -/

/-- A settled order and the payments that are paid are left alone. -/
structure Untouched (orderId : String) (s t : Shop) : Prop where
  order : ∀ o, s.orders.get? orderId = some o → o.Settled → t.orders.get? orderId = some o
  payments : ∀ id r, s.payments.get? id = some r → r.status = .paid →
    t.payments.get? id = some r

/-- No change touches nothing. -/
theorem Untouched.refl {orderId : String} (s : Shop) : Untouched orderId s s :=
  ⟨fun _ ho _ => ho, fun _ _ hr _ => hr⟩

/-- Changes that touch nothing compose. -/
theorem Untouched.trans {orderId : String} {s t u : Shop} (h : Untouched orderId s t)
    (h' : Untouched orderId t u) : Untouched orderId s u :=
  ⟨fun o ho hsettled => h'.order o (h.order o ho hsettled) hsettled,
    fun id r hr hpaid => h'.payments id r (h.payments id r hr hpaid) hpaid⟩

/-- Deliveries of events that are not paid leave what is paid alone. -/
def deliveryDiscipline (orderId : String) (d : Delivery) : Discipline Moment ShopAction Shop where
  inv _ := True
  step s t := d.status ≠ .paid → Untouched orderId s t
  rel s t := d.status ≠ .paid → Untouched orderId s t
  ok _ _ _ := True
  refl s _ := .refl s
  sub _ _ h := h
  trans _ _ _ h h' hstatus := (h hstatus).trans (h' hstatus)

section Failures

variable {owner gatewayId orderId : String} {d : Delivery}

/-- A write of the events only touches no order and no payment. -/
theorem steady_event {f : Moment → Shop → Shop}
    (horders : ∀ o s, (f o s).orders = s.orders) (hpayments : ∀ o s, (f o s).payments = s.payments) :
    (step fun o => Tx.write (f o)).Steady (deliveryDiscipline orderId d) := by
  apply steady_step
  intro o s _
  refine ⟨trivial, fun _ => ⟨fun order ho _ => ?_, fun id r hr _ => ?_⟩⟩
  · rw [horders, ho]
  · rw [hpayments, hr]

/-- A failed payment leaves what is paid alone. -/
theorem untouched_failTx {reference : String} {payment : PaymentStatus} {terminal : OrderStatus} :
    (step (failTx owner orderId reference payment terminal)).Steady
      (deliveryDiscipline orderId d) := by
  apply steady_step
  intro o s _
  simp only [failTx, Tx.wp_bind, Tx.wp_write]
  refine ⟨trivial, fun _ => ⟨fun order ho hsettled => ?_, fun id r hr hpaid => ?_⟩⟩
  · rw [updateOrder_orders, failPayment_orders, Table.get?_update, if_pos rfl, ho,
      Option.map_some, if_neg]
    rintro ⟨-, hopen⟩
    simp only [Order.Settled, List.mem_cons, List.not_mem_nil, or_false] at hsettled hopen
    rcases hsettled with h | h | h
    all_goals simp [h] at hopen
  · have hnext : PaymentsLater s.payments
        (s.failPayment owner orderId reference payment o.pick).payments := later_failPayment
    obtain ⟨r', hr', hlater⟩ := hnext.next id r hr
    rw [hlater.paid hpaid] at hr'
    exact hr'

/-- Each delivery keeps to its discipline. -/
theorem steady_cryptoWebhook :
    (cryptoWebhook owner gatewayId orderId d).Steady (deliveryDiscipline orderId d) := by
  by_cases hstatus : d.status = .paid
  · apply Script.steady_of_forall
    · exact fun _ => trivial
    · exact fun _ _ h => (h hstatus).elim
  have happly : (applyEvent owner orderId d).Steady (deliveryDiscipline orderId d) := by
    cases hevent : d.status with
    | paid => exact (hstatus hevent).elim
    | failed =>
        simp only [applyEvent, hevent]
        exact .bind untouched_failTx fun _ => steady_announce
    | expired =>
        simp only [applyEvent, hevent]
        exact .bind untouched_failTx fun _ => steady_announce
  have hprocess : (processEvent owner gatewayId orderId d).Steady
      (deliveryDiscipline orderId d) := by
    apply Script.Steady.handle
    · apply Script.Steady.bind happly
      exact fun _ => steady_event (fun _ _ => rfl) fun _ _ => rfl
    · intro e
      apply Script.Steady.bind
      · exact steady_event (fun _ _ => rfl) fun _ _ => rfl
      · exact fun _ => .raise
  apply Script.Steady.bind steady_look
  intro enabled
  apply Script.Steady.bind steady_insist
  intro _
  apply Script.Steady.bind steady_outside
  intro _
  apply Script.Steady.bind steady_insist
  intro _
  apply Script.Steady.bind steady_insist
  intro _
  apply Script.Steady.bind steady_look
  intro order
  apply Script.Steady.bind steady_insist
  intro _
  apply Script.Steady.bind steady_insist
  intro _
  apply Script.Steady.bind
  · apply steady_commit
    intro o s _ _
    simp only [insertEvent, Tx.wp_bind, Tx.wp_read]
    cases s.gatewayEvents.get? (owner, gatewayId, d.event) with
    | some row => exact ⟨trivial, fun _ => .refl s⟩
    | none => exact ⟨trivial, fun _ => ⟨fun _ ho _ => ho, fun _ _ hr _ => hr⟩⟩
  · intro new
    split
    · exact .bind hprocess fun _ => .pure
    · exact .pure

end Failures

/-! ## Deliveries that overlap -/

/-- The other methods of the shop may leave anything in the other tables. -/
def Shop.around (tables s : Shop) : Shop :=
  { tables with
    orders := s.orders
    payments := s.payments
    gatewayEvents := s.gatewayEvents }

/-- Threads that carry out deliveries. -/
abbrev WebhookSystem : Type 1 :=
  Pool Delivery Moment ShopAction Shop Failure Bool

namespace WebhookSystem

variable {owner gatewayId orderId : String} {w w' : WebhookSystem}

/-- What happens to the deliveries of the events of an order. -/
def next (owner gatewayId orderId : String) (w : WebhookSystem)
    (e : PoolEvent Delivery Moment Shop) : Option WebhookSystem :=
  Pool.next (cryptoWebhook owner gatewayId orderId) Shop.around w e

/-- The step relation of the deliveries. -/
def Step (owner gatewayId orderId : String) (w : WebhookSystem)
    (e : PoolEvent Delivery Moment Shop) (w' : WebhookSystem) : Prop :=
  w.next owner gatewayId orderId e = some w'

/-- A delivery of a paid event stands between the transaction that records it and the one
that pays the order, or the one that removes the row. -/
def Applying (t : Thread Delivery Moment ShopAction Shop Failure Bool) : Prop :=
  t.rest.name? = some .confirm ∨ t.rest.name? = some .drop

instance : DecidablePred Applying :=
  fun _ => inferInstanceAs (Decidable (_ ∨ _))

/-- The condition on an event: the deliveries of an event report the same, no event is
looked up while another delivery applies it, and a delivery that applies a paid event
removes its row if it fails, and is not lost. -/
def Allowed (kind : String → EventStatus) (w : WebhookSystem) :
    PoolEvent Delivery Moment Shop → Prop
  | .enter d => d.status = kind d.event
  | .run i o => ∀ t ∈ w.threads[i]?,
      (t.rest.name? = some .event →
        ∀ t' ∈ w.threads, t'.call.event = t.call.event → ¬Applying t') ∧
      (t.rest.name? = some .drop → o.raised = none)
  | .crash => ∀ t ∈ w.threads, ¬Applying t
  | .answer _ | .outside _ => True

instance (kind : String → EventStatus) (w : WebhookSystem) :
    ∀ e, Decidable (w.Allowed kind e)
  | .enter _ => inferInstanceAs (Decidable (_ = _))
  | .run i o => inferInstanceAs (Decidable (∀ t ∈ w.threads[i]?,
      (t.rest.name? = some .event →
        ∀ t' ∈ w.threads, t'.call.event = t.call.event → ¬Applying t') ∧
      (t.rest.name? = some .drop → o.raised = none)))
  | .crash => inferInstanceAs (Decidable (∀ t ∈ w.threads, ¬Applying t))
  | .answer _ | .outside _ => .isTrue trivial

/-- A paid event that has been recorded is owed until the order is paid, the deliveries
are in phases, and each keeps to its discipline. -/
structure Sound (owner gatewayId orderId : String) (kind : String → EventStatus)
    (gs : List DeliveryPhase) (w : WebhookSystem) : Prop where
  phased : Pool.Phased (webhookPhases owner gatewayId orderId kind)
    (fun d g _ => g ≠ .applying ∧ (d.status = .paid → g = .applied))
    (fun _ g _ => g ≠ .applying) gs w
  kept : Pool.Kept (deliveryDiscipline orderId) w

section Sound

variable {kind : String → EventStatus} {gs : List DeliveryPhase}

/-- A paid event that is owed is being applied by a delivery of it. -/
theorem Sound.owed (h : w.Sound owner gatewayId orderId kind gs) {eventId : String}
    (hkind : kind eventId = .paid) (hrecorded : w.store.Recorded owner gatewayId eventId)
    (hunpaid : ¬w.store.Paid orderId) : ∃ t ∈ w.threads, t.call.event = eventId ∧ Applying t := by
  have hfree : ∀ (d : Delivery) g (duplicate : Bool) a,
      g ≠ .applying ∧ (d.status = .paid → g = .applied) →
        ¬(webhookPhases owner gatewayId orderId kind).covers d g a :=
    fun _ _ _ _ hend hcovers => hend.1 hcovers.1
  obtain ⟨t, ht, g, name, hcovers, hname, hmay⟩ := h.phased.standing hfree
    (fun _ _ _ _ hend hcovers => hend hcovers.1) ⟨hkind, hrecorded, hunpaid⟩
  refine ⟨t, ht, hcovers.2, ?_⟩
  rw [Applying, hname]
  exact (hmay hcovers.1).imp (congrArg some) (congrArg some)

/-- Where an event is allowed, a paid event finds its row only when the order is paid, and
a crash loses nothing. -/
theorem Sound.complies {e : PoolEvent Delivery Moment Shop}
    (h : w.Sound owner gatewayId orderId kind gs) (hok : w.Allowed kind e) :
    Pool.Complies (webhookPhases owner gatewayId orderId kind) w e := by
  cases e with
  | run i o =>
      intro d name α action next hthread
      obtain ⟨hlookup, hdrop⟩ := hok _ hthread
      refine ⟨?_, fun hname => hdrop (congrArg some hname)⟩
      rintro rfl hkind hrecorded
      by_contra hunpaid
      obtain ⟨t, ht, hevent, happlying⟩ := h.owed hkind hrecorded hunpaid
      exact hlookup rfl t ht hevent happlying
  | crash =>
      rintro eventId ⟨hkind, hrecorded, hunpaid⟩
      obtain ⟨t, ht, -, happlying⟩ := h.owed hkind hrecorded hunpaid
      exact hok t ht happlying
  | enter d | answer i | outside tables => trivial

/-- One event keeps the deliveries sound. -/
theorem Sound.step {e : PoolEvent Delivery Moment Shop}
    (h : w.Sound owner gatewayId orderId kind gs)
    (hstep : Guarded (Step owner gatewayId orderId) (Allowed kind) w e w') :
    ∃ gs', w'.Sound owner gatewayId orderId kind gs' := by
  have hscript : ∀ d, e = .enter d →
      (DeliveryPhase.fresh = .applied → w.store.Paid orderId) ∧
        (cryptoWebhook owner gatewayId orderId d).Passes
          (webhookPhases owner gatewayId orderId kind) d
          (fun g _ => g ≠ .applying ∧ (d.status = .paid → g = .applied))
          (fun g _ => g ≠ .applying) .fresh := by
    rintro d rfl
    exact ⟨fun h => (by cases h), passes_cryptoWebhook hstep.2⟩
  have houtside : ∀ tables s, s.Payable orderId →
      (Shop.around tables s).Payable orderId ∧
        (∀ g : DeliveryPhase, (g = .applied → s.Paid orderId) →
          g = .applied → (Shop.around tables s).Paid orderId) ∧
        ∀ eventId, (webhookPhases owner gatewayId orderId kind).debt eventId
          (Shop.around tables s) → (webhookPhases owner gatewayId orderId kind).debt eventId s := by
    intro tables s hs
    have hsame : Receives orderId s (Shop.around tables s) := ⟨.refl _, .refl _⟩
    exact ⟨hsame.payable hs, fun _ hpaid happlied => hsame.paid (hpaid happlied), fun _ h => h⟩
  obtain ⟨gs', hphased⟩ := h.phased.next (fun _ _ _ _ hend hcovers => hend.1 hcovers.1)
    (fun _ _ _ _ hend hcovers => hend hcovers.1) hscript houtside hstep.1 (h.complies hstep.2)
  exact ⟨gs', hphased, h.kept.next (fun _ => steady_cryptoWebhook) hstep.1⟩

end Sound

end WebhookSystem

/-- Over every interleaving of the deliveries in which no event is looked up and no crash
comes while a delivery applies the event: when a paid event has been answered, the order is
paid or delivered and its newest payment is paid; and events of failed payments leave a
settled order and its paid payments alone. -/
theorem webhook_applied {owner gatewayId orderId : String} {kind : String → EventStatus} {s : Shop}
    {es : List (PoolEvent Delivery Moment Shop)} {w : WebhookSystem} (hs : s.Payable orderId)
    (hnew : ∀ eventId, kind eventId = .paid → ¬s.Recorded owner gatewayId eventId)
    (hrun : Run (Guarded (WebhookSystem.Step owner gatewayId orderId)
      (WebhookSystem.Allowed kind)) (Pool.start s) es w) :
    (∀ d duplicate, (d, .ok duplicate) ∈ w.answers → d.status = .paid →
        w.store.Paid orderId) ∧
      ∀ i o w' t, w.threads[i]? = some t → t.call.status ≠ .paid →
        WebhookSystem.Step owner gatewayId orderId w (.run i o) w' →
          Untouched orderId w.store w'.store := by
  have hstart : ∃ gs, WebhookSystem.Sound owner gatewayId orderId kind gs (Pool.start s) :=
    ⟨[], Pool.phased_start hs fun eventId hdebt => hnew eventId hdebt.1 hdebt.2.1,
      fun _ ht => (List.not_mem_nil ht).elim⟩
  have hkept : ∀ a e b, (∃ gs, WebhookSystem.Sound owner gatewayId orderId kind gs a) →
      Guarded (WebhookSystem.Step owner gatewayId orderId) (WebhookSystem.Allowed kind) a e b →
      ∃ gs, WebhookSystem.Sound owner gatewayId orderId kind gs b := by
    rintro a e b ⟨gs, h⟩ hstep
    exact h.step hstep
  obtain ⟨gs, hsound⟩ := hrun.invariant hstart hkept
  constructor
  · intro d duplicate hanswer hstatus
    obtain ⟨g, hclaim, hend⟩ := hsound.phased.answers _ hanswer
    exact hclaim (hend.2 hstatus)
  · intro i o w' t ht hstatus hstep
    exact hsound.kept.step ht trivial (fun _ => trivial) hstep hstatus

/-! ### A crash after the row was written -/

/-- A shop with an order that waits for its payment through a gateway. -/
def awaitingShop : Shop :=
  { Shop.empty with
    accounts := Table.empty.insert "shop" ⟨.owner, false⟩
    profiles := Table.empty.insert "shop" ⟨"Shop", [1], "s-", 0, 0⟩
    gateways := Table.empty.insert ("shop", "crypto") true
    orders := Table.empty.insert "order"
      { newOrder "shop" 7 ⟨5000, "USDT", 1000, 30, 1, 1, [1], false⟩ .purchase "" 0 1 with
        status := .awaitingPayment
        gatewayId := "crypto" }
    payments := Table.empty.insert "payment" ⟨1, "order", "shop", "crypto", 5000, .pending, "", 1⟩ }

/-- The order of the shop can be paid. -/
theorem payable_awaitingShop : awaitingShop.Payable "order" where
  order := ⟨_, rfl⟩
  payments := by decide

/-- The event that reports the payment. -/
def paidEvent : Delivery :=
  ⟨"event", .paid, "reference", 5000, "USDT", true⟩

/-- A delivery of the event, with the number of its transactions. -/
def deliver (transactions : ℕ) : List (PoolEvent Delivery Moment Shop) :=
  .enter paidEvent :: List.replicate transactions (.run 0 ⟨1, "", none, 0, true⟩)

/-- The answers of a system. -/
def WebhookSystem.answered (w : WebhookSystem) : List (Delivery × Option Bool) :=
  w.answers.map fun a => (a.1, a.2.toOption)

/-- An answer that was given is recorded. -/
theorem mem_answers {w : WebhookSystem} {d : Delivery} {duplicate : Bool}
    (h : (d, some duplicate) ∈ w.answered) : (d, .ok duplicate) ∈ w.answers := by
  obtain ⟨⟨d', result⟩, ha, hsame⟩ := List.mem_map.mp h
  rw [Prod.mk.injEq] at hsame
  cases result with
  | ok duplicate' =>
      obtain ⟨rfl, hresult⟩ := hsame
      cases hresult
      exact ha
  | error e => cases hsame.2

/-- The Hub crashes when the row of the event is written, and the event is redelivered. -/
def lostDelivery : List (PoolEvent Delivery Moment Shop) :=
  deliver 4 ++ [.crash] ++ deliver 4 ++ [.answer 0]

/-- The redelivered event is answered, and the order waits for its payment for ever. -/
theorem event_lost_in_crash : ¬∀ s es w, Shop.Payable s "order" →
    Run (WebhookSystem.Step "shop" "crypto" "order") (Pool.start s) es w →
      ∀ d duplicate, (d, .ok duplicate) ∈ w.answers → d.status = .paid →
        w.store.Paid "order" := by
  intro h
  have heval : (lostDelivery.foldlM (WebhookSystem.next "shop" "crypto" "order")
      (Pool.start awaitingShop)).map
        (fun w => (w.answered, decide (w.store.Paid "order"))) =
          some ([(paidEvent, some true)], false) := by
    decide +kernel
  obtain ⟨w, hrun, hobserved⟩ := Option.map_eq_some_iff.mp heval
  rw [Prod.mk.injEq] at hobserved
  have hmem : (paidEvent, some true) ∈ w.answered := by
    rw [hobserved.1]
    exact List.mem_singleton_self _
  have hpaid := h awaitingShop _ w payable_awaitingShop (Run.of_eval hrun) paidEvent true
    (mem_answers hmem) rfl
  exact of_decide_eq_false hobserved.2 hpaid

/-- The event that reports that the time for the payment is over. -/
def expiredEvent : Delivery :=
  ⟨"expiry", .expired, "reference", 5000, "USDT", true⟩

/-- What the two events report. -/
def reported (eventId : String) : EventStatus :=
  if eventId = "event" then .paid else .expired

/-- A number of transactions of a delivery. -/
def transactions (thread count : ℕ) : List (PoolEvent Delivery Moment Shop) :=
  List.replicate count (.run thread ⟨1, "", none, 0, true⟩)

/-- The payment cannot be confirmed at first, and the row is removed; the Hub crashes; the
event is applied when it is redelivered, and delivered once more while the order is being
provisioned; last, the other event arrives. -/
def redeliveries : List (PoolEvent Delivery Moment Shop) :=
  .enter paidEvent :: transactions 0 5 ++ .run 0 ⟨1, "", some .integrityError, 0, true⟩ ::
    transactions 0 1 ++ [.answer 0, .crash, .enter paidEvent] ++ transactions 0 6 ++
    .enter paidEvent :: transactions 1 4 ++ .answer 1 :: transactions 0 15 ++
    [.answer 0, .enter expiredEvent] ++ transactions 0 7 ++ [.answer 0]

/-- A delivery that fails is given again, and the order is paid. -/
theorem webhook_applied_redelivered : ∃ w : WebhookSystem,
    w.answered = [(paidEvent, none), (paidEvent, some true), (paidEvent, some false),
      (expiredEvent, some false)] ∧ w.store.Paid "order" := by
  have heval : (redeliveries.foldlM
      (fun w e => if WebhookSystem.Allowed reported w e then
        WebhookSystem.next "shop" "crypto" "order" w e else none) (Pool.start awaitingShop)).map
          WebhookSystem.answered = some [(paidEvent, none), (paidEvent, some true),
            (paidEvent, some false), (expiredEvent, some false)] := by
    decide +kernel
  obtain ⟨w, hrun, hobserved⟩ := Option.map_eq_some_iff.mp heval
  have hmem : (paidEvent, some true) ∈ w.answered := by
    rw [hobserved]
    exact List.mem_cons_of_mem _ (List.mem_cons_self)
  have hnew : ∀ eventId, reported eventId = .paid →
      ¬awaitingShop.Recorded "shop" "crypto" eventId := fun _ _ hrecorded => hrecorded rfl
  exact ⟨w, hobserved, (webhook_applied payable_awaitingShop hnew (Run.of_guarded_eval hrun)).1
    paidEvent true (mem_answers hmem) rfl⟩

end Commerce
end DarkXray
