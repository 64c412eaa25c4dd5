import DarkXray.Commerce.Checkout
import DarkXray.Library.Sequences

/-!
# The life of an order

An order is collected from the wallet or through a gateway, delivered, and activated.
What has been delivered stays delivered, an order has at most one client, and it is
collected once, as long as the calls that lack a check are not made where the check
would have stopped them.

Main results:

- Theorem {lit}`Catalogue.update`: a change of an order that keeps the catalogue.
- Theorem {lit}`alone_script`: what the calls do, transaction by transaction.
- Theorem {lit}`order_collected_once`: the life of the orders over every sequence of
  calls.
-/

namespace DarkXray
namespace Commerce

open Library Policy

/-! ## Orders and their clients -/

/-- The order has been delivered. -/
def Order.Delivered (o : Order) : Prop :=
  o.status = .provisioned ∨ o.status = .provisionedWaitingActivation ∨
    o.status = .renewed ∧ o.orderType = .renewal

/-- What holds of each order: one with a client is delivered, one that waits for its
activation has a client, and the time of its service begins with its activation. -/
structure Order.Sound (o : Order) : Prop where
  delivered : o.clientId ≠ "" → o.Delivered
  held : o.status = .provisionedWaitingActivation → o.clientId ≠ ""
  times : o.activationExpiresAt = 0 ∨
    o.activationExpiresAt = o.activationStartedAt + o.duration

/-- What never changes in an order. -/
structure Order.Follows (o o' : Order) : Prop where
  owner : o'.owner = o.owner
  buyer : o'.buyer = o.buyer
  orderType : o'.orderType = o.orderType
  durationDays : o'.durationDays = o.durationDays
  client : o.clientId ≠ "" → o'.clientId = o.clientId

/-- The orders, and the clients that were made for them. -/
structure Catalogue (orders : Table String Order) (managed : Table String Managed)
    (profiles : Table String OwnerProfile) : Prop where
  sound : ∀ orderId o, orders.get? orderId = some o → o.Sound
  clients : ∀ identity c, managed.get? identity = some c → ∀ orderId,
    c.comment = orderComment orderId →
    ∃ o p, orders.get? orderId = some o ∧ o.orderType = .purchase ∧
      profiles.get? o.owner = some p ∧ identity = orderIdentity p.prefixText orderId o.buyer

/-- The order has been paid from the wallet. -/
def debited (ledger : List LedgerEntry) (orderId : String) : Bool :=
  ledger.any fun e =>
    e.kind = .purchase && e.reference = "order:" ++ orderId ||
      e.kind = .renewal && e.reference = "renewal:" ++ orderId

/-- Orders that were paid from the wallet have no other paid payment. -/
def Charged (ledger : List LedgerEntry) (payments : Table String Payment) : Prop :=
  ∀ orderId, debited ledger orderId = true → ∀ id r, payments.get? id = some r →
    r.orderId = orderId → r.gatewayId ≠ "wallet" → r.status ≠ .paid

/-- The shop is in order. -/
structure Shop.InOrder (s : Shop) : Prop where
  catalogue : Catalogue s.orders s.managed s.profiles
  charged : Charged s.ledger s.payments

/-- Later orders: none is lost, and none changes what never changes. -/
def Onward (orders orders' : Table String Order) : Prop :=
  ∀ orderId o, orders.get? orderId = some o →
    ∃ o', orders'.get? orderId = some o' ∧ o.Follows o'

/-- The order has been activated: its time has begun, and its client has the same end. -/
def Order.Activated (o : Order) (managed : Table String Managed) : Prop :=
  o.status = .provisioned ∧ o.activationExpiresAt = o.activationStartedAt + o.duration ∧
    ∃ c, managed.get? o.clientId = some c ∧ c.expiryTime = o.activationExpiresAt

/-- Orders that wait for their activation go on waiting or, where {lit}`active` permits
it, are activated. -/
def Waits (active : Prop) (orders orders' : Table String Order)
    (managed : Table String Managed) : Prop :=
  ∀ orderId o, orders.get? orderId = some o → o.status = .provisionedWaitingActivation →
    ∃ o', orders'.get? orderId = some o' ∧
      (o'.status = .provisionedWaitingActivation ∨ active ∧ o'.Activated managed)

/-- What one transaction may do. -/
structure Moves (active : Prop) (s t : Shop) : Prop where
  inOrder : t.InOrder
  onward : Onward s.orders t.orders
  waits : Waits active s.orders t.orders t.managed

/-- An order follows itself. -/
theorem Order.Follows.refl (o : Order) : o.Follows o :=
  ⟨rfl, rfl, rfl, rfl, fun _ => rfl⟩

/-- Following is transitive. -/
theorem Order.Follows.trans {o o' o'' : Order} (h : o.Follows o') (h' : o'.Follows o'') :
    o.Follows o'' where
  owner := h'.owner.trans h.owner
  buyer := h'.buyer.trans h.buyer
  orderType := h'.orderType.trans h.orderType
  durationDays := h'.durationDays.trans h.durationDays
  client hclient := by
    have hnext := h.client hclient
    rw [h'.client (by rwa [hnext]), hnext]

/-- The duration of an order stays. -/
theorem Order.Follows.duration {o o' : Order} (h : o.Follows o') : o'.duration = o.duration := by
  rw [Order.duration, h.durationDays, Order.duration]

/-- An order that is paid for or waits for its payment has no client. -/
theorem Order.Sound.client {o : Order} (h : o.Sound) (hstatus : ¬o.Delivered) :
    o.clientId = "" := by
  by_contra hclient
  exact hstatus (h.delivered hclient)

/-- Orders that stay are onward. -/
theorem Onward.refl (orders : Table String Order) : Onward orders orders :=
  fun _ o ho => ⟨o, ho, .refl o⟩

/-- Onward changes compose. -/
theorem Onward.trans {a b c : Table String Order} (h : Onward a b) (h' : Onward b c) :
    Onward a c := by
  intro orderId o ho
  obtain ⟨o', ho', hfollows⟩ := h orderId o ho
  obtain ⟨o'', ho'', hfollows'⟩ := h' orderId o' ho'
  exact ⟨o'', ho'', hfollows.trans hfollows'⟩

/-- An order that stays goes on waiting. -/
theorem Waits.refl (active : Prop) (orders : Table String Order)
    (managed : Table String Managed) : Waits active orders orders managed :=
  fun _ o ho hwaiting => ⟨o, ho, .inl hwaiting⟩

/-- No change is a move. -/
theorem Moves.refl {active : Prop} {s : Shop} (hs : s.InOrder) : Moves active s s :=
  ⟨hs, .refl _, .refl _ _ _⟩

section Changes

variable {active : Prop} {orders : Table String Order} {managed : Table String Managed}
  {profiles : Table String OwnerProfile} {orderId : String} {f : Order → Order}

/-- A change of one order. -/
theorem Catalogue.update (h : Catalogue orders managed profiles)
    (hf : ∀ o, orders.get? orderId = some o → (f o).Sound ∧ o.Follows (f o)) :
    Catalogue (orders.update orderId f) managed profiles where
  sound id o ho := by
    rw [Table.get?_update] at ho
    split at ho
    · rename_i hid
      obtain ⟨o', ho', rfl⟩ := Option.map_eq_some_iff.mp ho
      exact (hf o' (hid ▸ ho')).1
    · exact h.sound id o ho
  clients identity c hc id hcomment := by
    obtain ⟨o, p, ho, hpurchase, hp, hidentity⟩ := h.clients identity c hc id hcomment
    rw [Table.get?_update, ho]
    by_cases hid : id = orderId
    · subst hid
      have hfollows := (hf o ho).2
      refine ⟨f o, p, if_pos rfl, ?_, ?_, ?_⟩
      · rw [hfollows.orderType, hpurchase]
      · rw [hfollows.owner, hp]
      · rw [hfollows.buyer, hidentity]
    · exact ⟨o, p, if_neg hid, hpurchase, hp, hidentity⟩

/-- A changed order is onward if it follows the old one. -/
theorem Onward.update (hf : ∀ o, orders.get? orderId = some o → o.Follows (f o)) :
    Onward orders (orders.update orderId f) := by
  intro id o ho
  rw [Table.get?_update, ho]
  by_cases hid : id = orderId
  · subst hid
    exact ⟨f o, if_pos rfl, hf o ho⟩
  · exact ⟨o, if_neg hid, .refl o⟩

/-- A changed order waits or has been activated. -/
theorem Waits.update (hf : ∀ o, orders.get? orderId = some o →
      o.status = .provisionedWaitingActivation →
      (f o).status = .provisionedWaitingActivation ∨ active ∧ (f o).Activated managed) :
    Waits active orders (orders.update orderId f) managed := by
  intro id o ho hwaiting
  rw [Table.get?_update, ho]
  by_cases hid : id = orderId
  · subst hid
    exact ⟨f o, if_pos rfl, hf o ho hwaiting⟩
  · exact ⟨o, if_neg hid, .inl hwaiting⟩

/-- A new order. -/
theorem Catalogue.create {o : Order} (h : Catalogue orders managed profiles)
    (hnew : orders.get? orderId = none) (ho : o.Sound) :
    Catalogue (orders.insert orderId o) managed profiles where
  sound id o' ho' := by
    rw [Table.get?_insert hnew] at ho'
    split at ho'
    · cases ho'
      exact ho
    · exact h.sound id o' ho'
  clients identity c hc id hcomment := by
    obtain ⟨o', p, ho', hrest⟩ := h.clients identity c hc id hcomment
    exact ⟨o', p, Table.get?_insert_of_some ho' _ _, hrest⟩

/-- A new order is onward. -/
theorem Onward.create {o : Order} : Onward orders (orders.insert orderId o) :=
  fun _ o' ho' => ⟨o', Table.get?_insert_of_some ho' _ _, .refl o'⟩

/-- A new order takes nothing from those that wait. -/
theorem Waits.create {o : Order} : Waits active orders (orders.insert orderId o) managed :=
  fun _ o' ho' hwaiting => ⟨o', Table.get?_insert_of_some ho' _ _, .inl hwaiting⟩

/-- A change of a client that keeps its comment. -/
theorem Catalogue.updateClient {identity : String} {f : Managed → Managed}
    (h : Catalogue orders managed profiles) (hf : ∀ c, (f c).comment = c.comment) :
    Catalogue orders (managed.update identity f) profiles where
  sound := h.sound
  clients id c hc orderId hcomment := by
    rw [Table.get?_update] at hc
    split at hc
    · obtain ⟨c', hc', rfl⟩ := Option.map_eq_some_iff.mp hc
      rw [hf] at hcomment
      exact h.clients id c' hc' orderId hcomment
    · exact h.clients id c hc orderId hcomment

/-- Comments of different orders differ. -/
theorem orderComment_injective {a b : String} (h : orderComment a = orderComment b) : a = b :=
  (String.append_right_inj _).mp h

/-- The client of a purchase. -/
theorem Catalogue.createClient {o : Order} {p : OwnerProfile} {now : ℕ}
    (h : Catalogue orders managed profiles) (ho : orders.get? orderId = some o)
    (hpurchase : o.orderType = .purchase) (hp : profiles.get? o.owner = some p)
    (hnew : managed.get? (orderIdentity p.prefixText orderId o.buyer) = none) :
    Catalogue orders
      (managed.insert (orderIdentity p.prefixText orderId o.buyer) (orderClient orderId o now))
      profiles where
  sound := h.sound
  clients id c hc orderId' hcomment := by
    rw [Table.get?_insert hnew] at hc
    split at hc
    · rename_i hid
      cases hc
      cases orderComment_injective hcomment
      exact ⟨o, p, ho, hpurchase, hp, hid⟩
    · exact h.clients id c hc orderId' hcomment

end Changes

section Charges

variable {ledger : List LedgerEntry} {payments : Table String Payment} {id : String}

/-- A payment that is not paid, or is one from the wallet. -/
theorem Charged.insert {r : Payment} (h : Charged ledger payments)
    (hr : r.gatewayId ≠ "wallet" → r.status ≠ .paid) :
    Charged ledger (payments.insert id r) := by
  intro orderId hdebit id' r' hr' horder hgateway
  by_cases hnew : payments.get? id = none
  · rw [Table.get?_insert hnew] at hr'
    split at hr'
    · cases hr'
      exact hr hgateway
    · exact h orderId hdebit id' r' hr' horder hgateway
  · have hold : payments.insert id r = payments := by
      rw [Table.get?_eq_none_iff, not_not] at hnew
      simp only [Table.insert, dif_pos hnew]
    rw [hold] at hr'
    exact h orderId hdebit id' r' hr' horder hgateway

/-- A change of one payment. -/
theorem Charged.update {f : Payment → Payment} (h : Charged ledger payments)
    (horder : ∀ r, (f r).orderId = r.orderId) (hgateway : ∀ r, (f r).gatewayId = r.gatewayId)
    (hf : ∀ r, payments.get? id = some r → (f r).status = .paid → r.status = .paid ∨
      r.gatewayId = "wallet" ∨ debited ledger r.orderId = false) :
    Charged ledger (payments.update id f) := by
  intro orderId hdebit id' r' hr' horderId hother hpaid
  rw [Table.get?_update] at hr'
  split at hr'
  · rename_i hid
    obtain ⟨r, hr, rfl⟩ := Option.map_eq_some_iff.mp hr'
    rw [horder] at horderId
    rw [hgateway] at hother
    rcases hf r (hid ▸ hr) hpaid with hold | hwallet | hfree
    · exact h orderId hdebit id' r hr horderId hother hold
    · exact hother hwallet
    · rw [horderId, hdebit] at hfree
      cases hfree
  · exact h orderId hdebit id' r' hr' horderId hother hpaid

/-- A new entry debits its order. -/
theorem debited_append {e : LedgerEntry} {orderId : String} :
    debited (ledger ++ [e]) orderId = (debited ledger orderId || debited [e] orderId) :=
  List.any_append

/-- An entry that pays for no order. -/
theorem Charged.enter {e : LedgerEntry} (h : Charged ledger payments)
    (he : ∀ orderId, debited [e] orderId = false) : Charged (ledger ++ [e]) payments := by
  intro orderId hdebit
  rw [debited_append, he, Bool.or_false] at hdebit
  exact h orderId hdebit

/-- The debit of an order that has no other paid payment. -/
theorem Charged.debit {e : LedgerEntry} {orderId : String} (h : Charged ledger payments)
    (he : ∀ id, debited [e] id = true → id = orderId)
    (hfree : ∀ id r, payments.get? id = some r → r.orderId = orderId →
      r.gatewayId ≠ "wallet" → r.status ≠ .paid) :
    Charged (ledger ++ [e]) payments := by
  intro id hdebit
  rw [debited_append, Bool.or_eq_true] at hdebit
  rcases hdebit with hold | hnew
  · exact h id hold
  · rw [he id hnew]
    exact hfree

end Charges

/-! ## Steps -/

section Steps

variable {α : Type} {active : Prop} {s : Shop} {q : α → Shop → Prop} {r : Failure → Shop → Prop}

/-- A transaction whose body moves the shop, whatever its name. -/
theorem alone_commit {name : ShopAction} {body : Moment → ShopTx α} (hs : s.InOrder)
    (h : ∀ o, (body o).wp (fun a t => Moves active s t ∧ q a t) (fun _ _ => True) s)
    (hr : ∀ e, r e s) : (Script.perform name (commit body)).Alone (Moves active) q r s := by
  intro o
  rw [wp_commit]
  apply Tx.wp_mono (h o)
  · exact fun _ _ ht => ⟨fun _ => ht, fun e _ => ⟨.refl hs, hr e⟩⟩
  · exact fun e _ _ => ⟨.refl hs, hr e⟩

/-- A transaction that moves. -/
theorem alone_step {body : Moment → ShopTx α} (hs : s.InOrder)
    (h : ∀ o, (body o).wp (fun a t => Moves active s t ∧ q a t) (fun _ _ => True) s)
    (hr : ∀ e, r e s) : (step body).Alone (Moves active) q r s :=
  alone_commit hs h hr

/-- A read moves nothing. -/
theorem alone_lookAs {name : ShopAction} {f : Moment → Shop → Except Failure α} (hs : s.InOrder)
    (hq : ∀ o a, f o s = .ok a → q a s) (hr : ∀ e, r e s) :
    (lookAs name f).Alone (Moves active) q r s := by
  apply alone_commit hs _ hr
  intro o
  simp only [Tx.wp_bind, Tx.wp_read, Tx.wp_ofExcept]
  exact ⟨fun a ha => ⟨.refl hs, hq o a ha⟩, fun _ _ => trivial⟩

/-- A read moves nothing. -/
theorem alone_look {f : Moment → Shop → Except Failure α} (hs : s.InOrder)
    (hq : ∀ o a, f o s = .ok a → q a s) (hr : ∀ e, r e s) :
    (look f).Alone (Moves active) q r s :=
  alone_lookAs hs hq hr

/-- An outside answer moves nothing. -/
theorem alone_outside {q : Bool → Shop → Prop} (hs : s.InOrder) (hq : ∀ b, q b s)
    (hr : ∀ e, r e s) : outside.Alone (Moves active) q r s :=
  alone_step hs (fun o => ⟨.refl hs, hq o.answer⟩) hr

/-- A check moves nothing. -/
theorem alone_insist {p : Prop} [Decidable p] {message : String} {q : Unit → Shop → Prop}
    (hq : p → q () s) (hr : ∀ e, r e s) : (insist p message).Alone (Moves active) q r s := by
  rw [insist, Script.alone_ofExcept]
  constructor
  · intro _ h
    exact hq (ensure_ok_iff.mp h)
  · exact fun e _ => hr e

/-- A look-up moves nothing. -/
theorem alone_found {row : Option α} {message : String} (hq : ∀ a, row = some a → q a s)
    (hr : ∀ e, r e s) :
    (Script.ofExcept (found row message) : ShopScript α).Alone (Moves active) q r s := by
  rw [Script.alone_ofExcept]
  constructor
  · intro a h
    cases row with
    | none => cases h
    | some a' => exact hq a (by simpa [found] using h)
  · exact fun e _ => hr e

/-- A change of an order that leaves its service alone. -/
structure Order.SameService (o o' : Order) : Prop where
  follows : o.Follows o'
  clientId : o'.clientId = o.clientId
  startedAt : o'.activationStartedAt = o.activationStartedAt
  expiresAt : o'.activationExpiresAt = o.activationExpiresAt

/-- The status of an order without a client may change. -/
theorem Order.SameService.sound {o o' : Order} (h : o.SameService o') (ho : o.Sound)
    (hstatus : o'.status = o.status ∨
      o.clientId = "" ∧ o'.status ≠ .provisionedWaitingActivation) : o'.Sound where
  delivered hclient := by
    rw [h.clientId] at hclient
    rcases hstatus with hsame | hnone
    · simpa only [Order.Delivered, hsame, h.follows.orderType] using ho.delivered hclient
    · exact (hclient hnone.1).elim
  held hwaiting := by
    rw [h.clientId]
    rcases hstatus with hsame | hnone
    · exact ho.held (hsame ▸ hwaiting)
    · exact (hnone.2 hwaiting).elim
  times := by
    rw [h.expiresAt, h.startedAt, h.follows.duration]
    exact ho.times

/-- A transaction on an order. -/
theorem moves_service {t : Shop} {orderId : String} {f : Order → Order} (hs : s.InOrder)
    (horders : t.orders = s.orders.update orderId f) (hmanaged : t.managed = s.managed)
    (hprofiles : t.profiles = s.profiles) (hcharged : Charged t.ledger t.payments)
    (hf : ∀ o, s.orders.get? orderId = some o → (f o).Sound ∧ o.Follows (f o))
    (hwaits : ∀ o, s.orders.get? orderId = some o →
      o.status = .provisionedWaitingActivation →
      (f o).status = .provisionedWaitingActivation ∨ active ∧ (f o).Activated s.managed) :
    Moves active s t where
  inOrder := by
    refine ⟨?_, hcharged⟩
    rw [horders, hmanaged, hprofiles]
    exact hs.catalogue.update hf
  onward := by
    rw [horders]
    exact .update fun o ho => (hf o ho).2
  waits := by
    rw [horders, hmanaged]
    exact .update hwaits

/-- A transaction on an order that leaves its service alone. -/
theorem moves_order {t : Shop} {orderId : String} {f : Order → Order} (hs : s.InOrder)
    (horders : t.orders = s.orders.update orderId f) (hmanaged : t.managed = s.managed)
    (hprofiles : t.profiles = s.profiles) (hcharged : Charged t.ledger t.payments)
    (hf : ∀ o : Order, o.SameService (f o))
    (hstatus : ∀ o, s.orders.get? orderId = some o → (f o).status = o.status ∨
      o.clientId = "" ∧ (f o).status ≠ .provisionedWaitingActivation) :
    Moves active s t := by
  apply moves_service hs horders hmanaged hprofiles hcharged
  · intro o ho
    exact ⟨(hf o).sound (hs.catalogue.sound _ o ho) (hstatus o ho), (hf o).follows⟩
  · intro o ho hwaiting
    rcases hstatus o ho with hsame | hnone
    · exact .inl (hsame.trans hwaiting)
    · exact ((hs.catalogue.sound _ o ho).held hwaiting hnone.1).elim

/-- A transaction that leaves the orders and their clients alone. -/
theorem moves_same {t : Shop} (hs : s.InOrder) (horders : t.orders = s.orders)
    (hmanaged : t.managed = s.managed) (hprofiles : t.profiles = s.profiles)
    (hcharged : Charged t.ledger t.payments) : Moves active s t where
  inOrder := by
    refine ⟨?_, hcharged⟩
    rw [horders, hmanaged, hprofiles]
    exact hs.catalogue
  onward := by
    rw [horders]
    exact .refl _
  waits := by
    rw [horders]
    exact .refl _ _ _

end Steps

/-! ## New orders and their payments -/

section Payments

variable {active : Prop} {s : Shop} {owner orderId : String}

/-- A new order is sound. -/
theorem sound_newOrder {buyer : ℤ} {offer : Offer} {orderType : OrderType} {target : String}
    {expiry : ℤ} {now : ℕ} :
    (newOrder owner buyer offer orderType target expiry now).Sound where
  delivered h := (h rfl).elim
  held h := by cases h
  times := .inl rfl

/-- Inserting a sound order moves. -/
theorem alone_insertOrder {order : ℕ → Order} (hs : s.InOrder) (ho : ∀ now, (order now).Sound) :
    (step (insertOrder order)).Alone (Moves active) (fun _ _ => True) (fun _ _ => True) s := by
  apply alone_step hs _ fun _ => trivial
  intro o
  simp only [insertOrder, Tx.wp_bind]
  apply wp_requirePlanCredit
  · simp only [Tx.wp_read, Tx.wp_require, Tx.wp_write, Tx.wp_pure]
    refine ⟨fun hnew => ⟨?_, trivial⟩, fun _ => trivial⟩
    exact ⟨⟨hs.catalogue.create hnew (ho _), hs.charged⟩, .create, .create⟩
  · exact fun _ => trivial

/-- Creating an order moves. -/
theorem alone_createOrder {buyer : ℤ} {offer : Offer} (hs : s.InOrder) :
    (createOrder owner buyer offer).Alone (Moves active) (fun _ _ => True)
      (fun _ _ => True) s :=
  alone_insertOrder hs fun _ => sound_newOrder

/-- Creating a renewal moves. -/
theorem alone_createRenewalOrder {buyer : ℤ} {target : String} {offer : Offer}
    (hs : s.InOrder) :
    (createRenewalOrder owner buyer target offer).Alone (Moves active) (fun _ _ => True)
      (fun _ _ => True) s := by
  refine Script.alone_bind.mpr (alone_look hs (fun _ origin _ => ?_) fun _ => trivial)
  refine Script.alone_bind.mpr (alone_insist (fun _ => ?_) fun _ => trivial)
  refine Script.alone_bind.mpr (alone_look hs (fun _ _ _ => ?_) fun _ => trivial)
  refine Script.alone_bind.mpr (alone_look hs (fun _ client _ => ?_) fun _ => trivial)
  refine Script.alone_bind.mpr (alone_insist (fun _ => ?_) fun _ => trivial)
  refine Script.alone_bind.mpr (alone_look hs (fun _ waiting _ => ?_) fun _ => trivial)
  refine Script.alone_bind.mpr (alone_insist (fun _ => ?_) fun _ => trivial)
  exact alone_insertOrder hs fun _ => sound_newOrder

/-- An order that may be paid has no client. -/
theorem undelivered {o : Order} {statuses : List OrderStatus} (ho : o.Sound)
    (hstatus : o.status ∈ statuses) (hnone : ∀ st ∈ statuses,
      st ≠ .provisioned ∧ st ≠ .provisionedWaitingActivation ∧ st ≠ .renewed) :
    o.clientId = "" := by
  apply ho.client
  have hst := hnone _ hstatus
  rintro (h | h | ⟨h, -⟩)
  · exact hst.1 h
  · exact hst.2.1 h
  · exact hst.2.2 h

/-- Starting a payment moves. -/
theorem alone_startPayment {gatewayId : String} (hs : s.InOrder) :
    (startPayment owner orderId gatewayId).Alone (Moves active) (fun _ _ => True)
      (fun _ _ => True) s := by
  refine Script.alone_bind.mpr (alone_step hs (fun o => ?_) fun _ => trivial)
  simp only [startPaymentTx, Tx.wp_bind]
  apply wp_orderTx
  intro order horder _
  apply wp_requirePlanCredit
  · simp only [demandPolicy, Tx.wp_require, Tx.wp_read, Tx.wp_write, insertPayment, Tx.wp_bind]
    refine ⟨fun hstatus => ⟨fun _ => ⟨fun hnew => ?_, fun _ => trivial⟩, fun _ => trivial⟩,
      fun _ => trivial⟩
    have hclient := undelivered (hs.catalogue.sound _ order horder) hstatus (by decide)
    have hmoves : Moves active s { s.updateOrder orderId fun r =>
        { r with
          status := .awaitingPayment
          gatewayId := gatewayId
          paymentRef := ""
          updatedAt := o.now } with
        payments := s.payments.insert o.fresh ⟨s.payments.rows.length + 1, orderId, order.owner,
          gatewayId, order.amountMinor, .pending, "", o.now⟩ } := by
      apply moves_order hs
      · simp only [updateOrder_orders]
        rfl
      · rfl
      · rfl
      · exact hs.charged.insert fun _ h => by cases h
      · exact fun o => ⟨⟨rfl, rfl, rfl, rfl, fun _ => rfl⟩, rfl, rfl, rfl⟩
      · intro o' ho'
        rw [horder] at ho'
        cases ho'
        exact .inr ⟨hclient, by simp⟩
    exact ⟨hmoves, alone_outside hmoves.inOrder (fun _ => trivial) fun _ => trivial⟩
  · exact fun _ => trivial

/-- The order that a receipt is for still waits for its payment. -/
theorem alone_recordReceipt {buyer : ℤ} {reference : String} (hs : s.InOrder) :
    (recordReceipt owner buyer reference).Alone (Moves active) (fun _ _ => True)
      (fun _ _ => True) s := by
  refine Script.alone_bind.mpr (alone_look hs (fun o waiting hwaiting => ?_) fun _ => trivial)
  refine Script.alone_bind.mpr (alone_found (fun order horder => ?_) fun _ => trivial)
  cases hwaiting
  obtain ⟨hrow, hstatus⟩ := List.mem_filter.mp (newest_mem horder).1
  simp only [Bool.and_eq_true, decide_eq_true_eq] at hstatus
  have hget := Table.get?_eq_some_iff.mpr hrow
  apply alone_step hs _ fun _ => trivial
  intro o
  simp only [recordReceiptTx, Tx.wp_bind, Tx.wp_read, Tx.wp_ofExcept, Tx.wp_write]
  refine ⟨fun pay _ => ⟨?_, trivial⟩, fun _ _ => trivial⟩
  apply moves_order hs
  · simp only [updateOrder_orders]
    rfl
  · rfl
  · rfl
  · apply Charged.update hs.charged
    · exact fun _ => rfl
    · exact fun _ => rfl
    · intro r _ hpaid
      cases hpaid
  · exact fun o => ⟨⟨rfl, rfl, rfl, rfl, fun _ => rfl⟩, rfl, rfl, rfl⟩
  · intro o' ho'
    rw [hget] at ho'
    cases ho'
    refine .inr ⟨?_, by simp⟩
    have hstatuses : order.2.status ∈ [OrderStatus.awaitingPayment] := by simp [hstatus.2]
    exact undelivered (hs.catalogue.sound _ _ hget) hstatuses (by decide)

/-- The row of a payment. -/
def Shop.paymentRow (s : Shop) (owner : String) (rowId : ℕ) : Option (String × Payment) :=
  s.payments.rows.find? fun r => r.2.rowId = rowId && r.2.owner = owner

/-- A rejection of a payment of an order without a client. -/
theorem alone_rejectPayment {rowId : ℕ} (hs : s.InOrder)
    (hok : ∀ r ∈ s.paymentRow owner rowId, ∀ o ∈ s.orders.get? r.2.orderId, o.clientId = "") :
    (rejectPayment owner rowId).Alone (Moves active) (fun _ _ => True) (fun _ _ => True) s := by
  refine Script.alone_bind.mpr (alone_look hs (fun o pay hpay => ?_) fun _ => trivial)
  have hrow : s.paymentRow owner rowId = some pay := found_eq_ok hpay
  refine Script.alone_bind.mpr (alone_step hs (fun o => ?_) fun _ => trivial)
  have hmoves : Moves active s { s.updateOrder pay.2.orderId fun r =>
      { r with
        status := .paymentRejected
        updatedAt := o.now } with
      payments := s.payments.update pay.1 fun r => { r with status := .rejected } } := by
    apply moves_order hs
    · simp only [updateOrder_orders]
      rfl
    · rfl
    · rfl
    · apply Charged.update hs.charged
      · exact fun _ => rfl
      · exact fun _ => rfl
      · intro r _ hpaid
        cases hpaid
    · exact fun o => ⟨⟨rfl, rfl, rfl, rfl, fun _ => rfl⟩, rfl, rfl, rfl⟩
    · exact fun o ho => .inr ⟨hok pay hrow o ho, by simp⟩
  refine ⟨hmoves, ?_⟩
  exact Script.alone_bind.mpr (alone_look hmoves.inOrder (fun _ _ _ => trivial) fun _ => trivial)

end Payments

/-! ## Delivery -/

section Delivery

variable {active : Prop} {s : Shop} {owner orderId : String}

/-- What a script leaves behind that began in the shop {lit}`s`. -/
def Since (s : Shop) (t : Shop) : Prop :=
  t.InOrder ∧ Onward s.orders t.orders

/-- What holds since a state goes on holding. -/
theorem Moves.since {s₀ t : Shop} (h : Moves active s t) (hs : Since s₀ s) : Since s₀ t :=
  ⟨h.inOrder, hs.2.trans h.onward⟩

/-- A state holds since itself. -/
theorem Since.refl (hs : s.InOrder) : Since s s :=
  ⟨hs, .refl _⟩

/-- A client is read, and its links are made. -/
theorem alone_deliveryPayload {q : Unit → Shop → Prop} {r : Failure → Shop → Prop}
    (hs : s.InOrder) (hq : q () s) (hr : ∀ e, r e s) :
    (deliveryPayload orderId).Alone (Moves active) q r s := by
  refine Script.alone_bind.mpr (alone_look hs (fun _ order _ => ?_) hr)
  split
  · exact hq
  · refine Script.alone_bind.mpr (alone_look hs (fun _ _ _ => ?_) hr)
    refine Script.alone_bind.mpr (alone_look hs (fun _ _ _ => ?_) hr)
    exact Script.alone_bind.mpr (alone_outside hs (fun _ => hq) hr)

/-- The failure of a script is noted. -/
theorem alone_orNote {s₀ : Shop} {script : ShopScript Unit} {q : Unit → Shop → Prop}
    (h : script.Alone (Moves active) q (fun _ t => Since s₀ t) s) :
    (orNote orderId script).Alone (Moves active) q (fun _ t => Since s₀ t) s := by
  rw [orNote, Script.alone_handle]
  apply h.mono (fun _ _ hq => hq)
  intro e t ht
  refine Script.alone_bind.mpr (alone_step ht.1 (fun o => ?_) fun _ => ht)
  have hmoves : Moves active t (t.updateOrder orderId fun r =>
      { r with
        fulfillmentError := (e.message.take 1000).toString
        updatedAt := o.now }) := by
    apply moves_order ht.1
    · simp only [updateOrder_orders]
      rfl
    · rfl
    · rfl
    · exact ht.1.charged
    · exact fun o => ⟨⟨rfl, rfl, rfl, rfl, fun _ => rfl⟩, rfl, rfl, rfl⟩
    · exact fun o _ => .inl rfl
  exact ⟨hmoves, hmoves.since ht⟩

/-- The client of a purchase is created under its identity, or found there. -/
theorem alone_produceClient {order : Order} {p : OwnerProfile} {now : ℕ} (hs : s.InOrder)
    (ho : s.orders.get? orderId = some order) (hpurchase : order.orderType = .purchase)
    (hp : s.profiles.get? order.owner = some p) :
    (produceClient orderId order (orderIdentity p.prefixText orderId order.buyer) now).Alone
      (Moves active) (fun _ t => t.InOrder ∧ t.orders = s.orders) (fun _ t => Since s t) s := by
  refine Script.alone_bind.mpr (alone_look hs (fun o existing hexisting => ?_) fun _ => .refl hs)
  cases hexisting
  cases hrow : s.managed.get? (orderIdentity p.prefixText orderId order.buyer) with
  | some saved =>
      refine Script.alone_bind.mpr (alone_insist (fun _ => ?_) fun _ => .refl hs)
      refine Script.alone_bind.mpr (alone_outside hs (fun _ => ?_) fun _ => .refl hs)
      exact Script.alone_bind.mpr (alone_look hs (fun _ _ _ => ⟨hs, rfl⟩) fun _ => .refl hs)
  | none =>
      refine Script.alone_bind.mpr (alone_step hs (fun o => ?_) fun _ => .refl hs)
      simp only [stageClient, demandPolicy, Tx.wp_bind, Tx.wp_read, Tx.wp_require, Tx.wp_write]
      refine ⟨fun _ => ?_, fun _ => trivial⟩
      have hmoves : Moves active s { s with
          managed := s.managed.insert (orderIdentity p.prefixText orderId order.buyer)
            (orderClient orderId order now) } :=
        ⟨⟨hs.catalogue.createClient ho hpurchase hp hrow, hs.charged⟩, .refl _, .refl _ _ _⟩
      refine ⟨hmoves, Script.alone_bind.mpr ?_⟩
      exact alone_outside hmoves.inOrder (fun _ => ⟨hmoves.inOrder, rfl⟩)
        fun _ => hmoves.since (.refl hs)

/-- The identity of an order is not empty. -/
theorem orderIdentity_ne (prefixText orderId : String) (buyer : ℤ) :
    orderIdentity prefixText orderId buyer ≠ "" := by
  intro h
  have hlower (text : String) : text.toLower.length = text.length := String.length_map
  have hlength := congrArg String.length h
  simp [orderIdentity, hlower] at hlength

/-- The transaction that delivers an order that has no client. -/
theorem moves_deliver {order : Order} {identity : String} {now updatedAt : ℕ} (hs : s.InOrder)
    (ho : s.orders.get? orderId = some order) (hclient : order.clientId = "")
    (hidentity : identity ≠ "") :
    Moves active s (s.updateOrder orderId fun r =>
      { r with
        status := if order.firstConnection then .provisionedWaitingActivation else .provisioned
        clientId := identity
        fulfillmentError := ""
        activationStartedAt := if order.firstConnection then 0 else now
        activationExpiresAt := if order.firstConnection then 0 else now + order.duration
        updatedAt := updatedAt }) := by
  apply moves_service hs
  · simp only [updateOrder_orders]
    rfl
  · rfl
  · rfl
  · exact hs.charged
  · intro o ho'
    rw [ho] at ho'
    cases ho'
    refine ⟨⟨fun _ => ?_, fun _ => hidentity, ?_⟩, rfl, rfl, rfl, rfl, fun h => (h hclient).elim⟩
    · cases order.firstConnection with
      | true => exact .inr (.inl rfl)
      | false => exact .inl rfl
    · cases order.firstConnection with
      | true => exact .inl rfl
      | false => exact .inr rfl
  · intro o ho' hwaiting
    have hsound := hs.catalogue.sound _ o ho'
    rw [ho] at ho'
    cases ho'
    exact (hsound.held hwaiting hclient).elim

/-- A production moves. -/
theorem alone_produce {order : Order} (hs : s.InOrder)
    (ho : s.orders.get? orderId = some order) (hclient : order.clientId = "")
    (hpurchase : order.orderType = .purchase) :
    (produce orderId order).Alone (Moves active) (fun _ t => Since s t)
      (fun _ t => Since s t) s := by
  refine Script.alone_bind.mpr (alone_look hs (fun _ _ _ => ?_) fun _ => .refl hs)
  refine Script.alone_bind.mpr (alone_look hs (fun _ p hp => ?_) fun _ => .refl hs)
  refine Script.alone_bind.mpr (alone_look hs (fun _ now _ => ?_) fun _ => .refl hs)
  rw [Script.alone_bind]
  apply Script.Alone.mono (alone_orNote (alone_produceClient hs ho hpurchase (found_eq_ok hp)))
  · rintro _ t ⟨ht, horders⟩
    have hsince : Since s t := ⟨ht, horders ▸ .refl _⟩
    refine Script.alone_bind.mpr (alone_step ht (fun o => ?_) fun _ => hsince)
    have hmoves : Moves active t (deliverTx orderId
        (orderIdentity p.prefixText orderId order.buyer) order now o t).2 :=
      moves_deliver ht (horders ▸ ho) hclient (orderIdentity_ne _ _ _)
    exact ⟨hmoves, alone_deliveryPayload hmoves.inOrder (hmoves.since hsince)
      fun _ => hmoves.since hsince⟩
  · exact fun _ _ h => h

/-- A purchase may be provisioned at any time. -/
theorem alone_provisionOrder (hs : s.InOrder)
    (hok : ∀ o ∈ s.orders.get? orderId, o.clientId = "" → o.orderType = .purchase) :
    (provisionOrder orderId).Alone (Moves active) (fun _ t => Since s t)
      (fun _ t => Since s t) s := by
  refine Script.alone_bind.mpr (alone_look hs (fun _ order horder => ?_) fun _ => .refl hs)
  have ho := (Option.filter_eq_some_iff.mp (found_eq_ok horder)).1
  split
  · rename_i hclient
    exact alone_produce hs ho hclient (hok order ho hclient)
  · refine Script.alone_bind.mpr (alone_look hs (fun _ _ _ => ?_) fun _ => .refl hs)
    refine Script.alone_bind.mpr (alone_look hs (fun _ _ _ => ?_) fun _ => .refl hs)
    exact alone_deliveryPayload hs (.refl hs) fun _ => .refl hs

end Delivery

/-! ## Confirmation -/

/-- A confirmation may deliver a purchase, and must not pay an order a second time: one
that was paid from the wallet has a payment from the wallet as its newest. -/
abbrev Shop.MayConfirm (s : Shop) (owner orderId : String) : Prop :=
  ∀ o ∈ (s.orders.get? orderId).filter fun r => owner = "" || r.owner = owner,
    o.status ∈ [OrderStatus.awaitingPayment, .paymentReview, .paid] →
      o.orderType = .purchase ∧ (debited s.ledger orderId = true →
        ∀ r ∈ s.paymentsOf orderId,
          (∀ r' ∈ s.paymentsOf orderId, r'.2.createdAt ≤ r.2.createdAt) →
            r.2.gatewayId = "wallet")

section Confirmation

variable {active : Prop} {s : Shop} {owner orderId : String}

/-- A confirmation moves if it may be made. -/
theorem wp_confirmTx {reference : String} {o : Moment} (hs : s.InOrder)
    (hclient : ∀ order, s.orders.get? orderId = some order → order.clientId = "")
    (hok : debited s.ledger orderId = true → ∀ r ∈ s.paymentsOf orderId,
      (∀ r' ∈ s.paymentsOf orderId, r'.2.createdAt ≤ r.2.createdAt) → r.2.gatewayId = "wallet") :
    (confirmTx orderId reference o).wp (fun _ t => Moves active s t) (fun _ _ => True) s := by
  simp only [confirmTx, Tx.wp_bind, Tx.wp_write, Tx.wp_read]
  cases hpay : Shop.newestPayment _ orderId o.pick with
  | none =>
      apply moves_order hs
      · simp only [updateOrder_orders]
        rfl
      · rfl
      · rfl
      · exact hs.charged
      · exact fun o => ⟨⟨rfl, rfl, rfl, rfl, fun _ => rfl⟩, rfl, rfl, rfl⟩
      · exact fun order horder => .inr ⟨hclient order horder, by simp⟩
  | some pay =>
      obtain ⟨hrow, horder, hlast⟩ := newestPayment_mem hpay
      apply moves_order hs
      · simp only [updateOrder_orders]
        rfl
      · rfl
      · rfl
      · apply Charged.update hs.charged
        · intro r
          split
          · rfl
          · rfl
        · intro r
          split
          · rfl
          · rfl
        · intro r hr _
          have hsame : pay.2 = r := Option.some.inj (hrow.symm.trans hr)
          subst hsame
          refine .inr ?_
          by_cases hdebit : debited s.ledger orderId = true
          · have hmem : pay ∈ s.paymentsOf orderId := by
              refine List.mem_filter.mpr ⟨Table.get?_eq_some_iff.mp hrow, ?_⟩
              simpa using horder
            exact .inl (hok hdebit pay hmem hlast)
          · rw [Bool.not_eq_true] at hdebit
            exact .inr (horder ▸ hdebit)
      · exact fun o => ⟨⟨rfl, rfl, rfl, rfl, fun _ => rfl⟩, rfl, rfl, rfl⟩
      · exact fun order horder => .inr ⟨hclient order horder, by simp⟩

/-- Confirming a payment moves. -/
theorem alone_confirmPayment {reference : String} (hs : s.InOrder)
    (hok : s.MayConfirm owner orderId) :
    (confirmPayment owner orderId reference).Alone (Moves active) (fun _ _ => True)
      (fun _ _ => True) s := by
  refine Script.alone_bind.mpr (alone_lookAs hs (fun _ order horder => ?_) fun _ => trivial)
  have hrow := found_eq_ok horder
  have hget := (Option.filter_eq_some_iff.mp hrow).1
  refine Script.alone_bind.mpr (alone_insist (fun hstatus => ?_) fun _ => trivial)
  have hclient := undelivered (hs.catalogue.sound _ order hget) hstatus (by decide)
  obtain ⟨hpurchase, hcharge⟩ := hok order hrow hstatus
  refine Script.alone_bind.mpr (alone_commit hs (fun o => ?_) fun _ => trivial)
  apply Tx.wp_mono (wp_confirmTx hs ?_ hcharge)
  · intro _ t ht
    refine ⟨ht, ?_⟩
    rw [Script.alone_handle, Script.alone_bind]
    apply Script.Alone.mono (alone_provisionOrder ht.inOrder ?_)
    · intro _ u hu
      exact Script.alone_bind.mpr (alone_look hu.1 (fun _ _ _ => trivial) fun _ => trivial)
    · exact fun _ _ _ => trivial
    · intro order' horder' _
      obtain ⟨order'', ho'', hfollows⟩ := ht.onward orderId order hget
      have hsame : order'' = order' := Option.some.inj (ho''.symm.trans horder')
      rw [← hsame, hfollows.orderType, hpurchase]
  · exact fun _ _ h => h
  · intro order' horder'
    rw [hget] at horder'
    cases horder'
    exact hclient

/-- Approving a payment moves. -/
theorem alone_approvePayment {rowId : ℕ} (hs : s.InOrder)
    (hok : ∀ r ∈ s.paymentRow owner rowId, s.MayConfirm owner r.2.orderId) :
    (approvePayment owner rowId).Alone (Moves active) (fun _ _ => True) (fun _ _ => True) s := by
  refine Script.alone_bind.mpr (alone_look hs (fun _ pay hpay => ?_) fun _ => trivial)
  exact alone_confirmPayment hs (hok pay (found_eq_ok hpay))

end Confirmation

/-! ## Activation -/

section Activation

variable {s : Shop} {orderId : String} {order : Order}

/-- The end of a client's service is moved; nothing else of it is read here. -/
theorem alone_managerUpdate {active : Prop} {identity : String} {f : Managed → Managed}
    {q : Unit → Shop → Prop} {r : Failure → Shop → Prop} (hs : s.InOrder)
    (hf : ∀ c, (f c).comment = c.comment)
    (hq : ∀ t, Moves active s t → t.orders = s.orders →
      (∃ c, t.managed.get? identity = some (f c)) → q () t)
    (hr : ∀ e t, Moves active s t → r e t) :
    (managerUpdate identity f).Alone (Moves active) q r s := by
  have hraise : ∀ e, r e s := fun e => hr e s (.refl hs)
  refine Script.alone_bind.mpr (alone_outside hs (fun _ => ?_) hraise)
  refine Script.alone_bind.mpr (alone_step hs (fun o => ?_) hraise)
  simp only [stageUpdate, Tx.wp_bind, Tx.wp_read, Tx.wp_ofExcept, Tx.wp_write]
  refine ⟨fun c hc => ?_, fun _ _ => trivial⟩
  have hmoves : Moves active s { s with managed := s.managed.update identity f } :=
    ⟨⟨hs.catalogue.updateClient hf, hs.charged⟩, .refl _, .refl _ _ _⟩
  refine ⟨hmoves, Script.alone_bind.mpr (alone_outside hmoves.inOrder (fun _ => ?_) ?_)⟩
  · refine hq _ hmoves rfl ⟨c, ?_⟩
    simp only [Table.get?_update, found_eq_ok hc, Option.map_some, if_pos]
  · exact fun e => hr e _ hmoves

/-- The time of the first use is fixed once. -/
theorem wp_startActivationTx {o : Moment} (hs : s.InOrder)
    (ho : ∃ o', s.orders.get? orderId = some o' ∧ order.Follows o') :
    (startActivationTx orderId order o).wp
      (fun times t => Moves True s t ∧ times.2 = times.1 + order.duration)
      (fun _ _ => True) s := by
  obtain ⟨o', ho', hfollows⟩ := ho
  have htimes := (hs.catalogue.sound _ o' ho').times
  rw [hfollows.duration] at htimes
  simp only [startActivationTx, Tx.wp_bind, Tx.wp_write, Tx.wp_read, Tx.wp_demand, Tx.wp_pure]
  refine ⟨fun saved hsaved => ⟨?_, ?_⟩, fun _ => trivial⟩
  · apply moves_service hs
    · simp only [updateOrder_orders]
      rfl
    · rfl
    · rfl
    · exact hs.charged
    · intro o'' ho''
      have hsame : o' = o'' := Option.some.inj (ho'.symm.trans ho'')
      subst hsame
      have hsound := hs.catalogue.sound _ o' ho'
      split
      · refine ⟨⟨hsound.delivered, hsound.held, .inr ?_⟩, rfl, rfl, rfl, rfl, fun _ => rfl⟩
        simp only [Order.duration, hfollows.durationDays]
      · exact ⟨hsound, .refl o'⟩
    · intro o'' _ hwaiting
      split
      · exact .inl hwaiting
      · exact .inl hwaiting
  · rw [updateOrder_orders, Table.get?_update, if_pos rfl, ho', Option.map_some] at hsaved
    cases hsaved
    by_cases hzero : o'.activationExpiresAt = 0
    · simp [hzero]
    · simpa [hzero] using htimes

/-- The end of an activation, when the client has got its end. -/
theorem moves_finish {started expires : ℕ} {o : Moment} (hs : s.InOrder)
    (ho : ∃ o', s.orders.get? orderId = some o' ∧ order.Follows o') (hclient : order.clientId ≠ "")
    (htimes : expires = started + order.duration)
    (hmanaged : ∃ c, s.managed.get? order.clientId = some c ∧ c.expiryTime = expires) :
    (finishActivationTx orderId started expires o).wp (fun _ t => Moves True s t)
      (fun _ _ => True) s := by
  obtain ⟨o', ho', hfollows⟩ := ho
  simp only [finishActivationTx, Tx.wp_write]
  apply moves_service hs
  · simp only [updateOrder_orders]
    rfl
  · rfl
  · rfl
  · exact hs.charged
  · intro o'' ho''
    have hsame : o' = o'' := Option.some.inj (ho'.symm.trans ho'')
    subst hsame
    have hsound := hs.catalogue.sound _ o' ho'
    split
    · refine ⟨⟨fun _ => .inl rfl, fun h => ?_, .inr ?_⟩, rfl, rfl, rfl, rfl, fun _ => rfl⟩
      · cases h
      · simp only [htimes, Order.duration, hfollows.durationDays]
    · exact ⟨hsound, .refl o'⟩
  · intro o'' ho'' hwaiting
    have hsame : o' = o'' := Option.some.inj (ho'.symm.trans ho'')
    subst hsame
    rw [if_pos hwaiting]
    refine .inr ⟨trivial, rfl, ?_, ?_⟩
    · simp only [htimes, Order.duration, hfollows.durationDays]
    · rw [hfollows.client hclient]
      exact hmanaged

/-- Activating an order moves. -/
theorem alone_activateOne (hs : s.InOrder)
    (ho : ∃ o', s.orders.get? orderId = some o' ∧ order.Follows o')
    (hclient : order.clientId ≠ "") :
    (activateOne orderId order).Alone (Moves True) (fun _ t => Since s t)
      (fun _ t => Since s t) s := by
  refine Script.alone_bind.mpr (alone_look hs (fun _ _ _ => ?_) fun _ => .refl hs)
  refine Script.alone_bind.mpr (alone_look hs (fun _ _ _ => ?_) fun _ => .refl hs)
  refine Script.alone_bind.mpr (alone_outside hs (fun used => ?_) fun _ => .refl hs)
  split
  · refine Script.alone_bind.mpr (alone_step hs (fun o => ?_) fun _ => .refl hs)
    apply Tx.wp_mono (wp_startActivationTx hs ho)
    · rintro times t ⟨ht, htimes⟩
      refine ⟨ht, Script.alone_bind.mpr ?_⟩
      have hsince := ht.since (.refl hs)
      apply alone_managerUpdate ht.inOrder
      · exact fun _ => rfl
      · rintro u hu horders ⟨c, hc⟩
        refine alone_step hu.inOrder (fun o => ?_) fun _ => hu.since hsince
        apply Tx.wp_mono (moves_finish hu.inOrder ?_ hclient htimes ⟨_, hc, rfl⟩)
        · exact fun _ v hv => ⟨hv, hv.since (hu.since hsince)⟩
        · exact fun _ _ h => h
        · obtain ⟨o', ho', hfollows⟩ := ho
          obtain ⟨o'', ho'', hfollows'⟩ := ht.onward orderId o' ho'
          exact ⟨o'', horders ▸ ho'', hfollows.trans hfollows'⟩
      · exact fun _ u hu => hu.since hsince
    · exact fun _ _ h => h
  · exact .refl hs

/-- Activating orders moves. -/
theorem alone_activateAll {rows : List (String × Order)} (hs : s.InOrder)
    (hrows : ∀ row ∈ rows, row.2.clientId ≠ "" ∧
      ∃ o', s.orders.get? row.1 = some o' ∧ row.2.Follows o') :
    (activateAll rows).Alone (Moves True) (fun _ _ => True) (fun _ _ => True) s := by
  induction rows generalizing s with
  | nil => trivial
  | cons row rows ih =>
      obtain ⟨hclient, ho⟩ := hrows row List.mem_cons_self
      have hnext : ∀ t, Since s t →
          (activateAll rows).Alone (Moves True) (fun _ _ => True) (fun _ _ => True) t := by
        intro t ht
        apply ih ht.1
        intro row' hrow'
        obtain ⟨hclient', o', ho', hfollows⟩ := hrows row' (List.mem_cons_of_mem _ hrow')
        obtain ⟨o'', ho'', hfollows'⟩ := ht.2 _ o' ho'
        exact ⟨hclient', o'', ho'', hfollows.trans hfollows'⟩
      rw [activateAll, Script.alone_bind, Script.alone_handle]
      apply Script.Alone.mono (alone_activateOne hs ho hclient)
      · exact fun _ t ht => hnext t ht
      · exact fun _ t ht => hnext t ht

/-- Activating on the first connection moves. -/
theorem alone_activateFirstConnections {limit : ℕ} (hs : s.InOrder) :
    (activateFirstConnections limit).Alone (Moves True) (fun _ _ => True)
      (fun _ _ => True) s := by
  refine Script.alone_bind.mpr (alone_look hs (fun _ rows hrows => ?_) fun _ => trivial)
  cases hrows
  apply alone_activateAll hs
  intro row hrow
  obtain ⟨hmem, hwaiting⟩ :=
    List.mem_filter.mp ((List.mem_insertionSort _).mp (List.mem_of_mem_take hrow))
  simp only [Bool.and_eq_true, decide_eq_true_eq] at hwaiting
  exact ⟨hwaiting.2, row.2, Table.get?_eq_some_iff.mpr hmem, .refl row.2⟩

end Activation

/-! ## Payment from the wallet -/

/-- The wallet may pay for an order that no other payment has paid for. -/
abbrev Shop.MayPay (s : Shop) (statuses : List OrderStatus) (owner orderId : String) : Prop :=
  ∀ o ∈ (s.orders.get? orderId).filter (·.owner = owner), o.status ∈ statuses →
    o.amountMinor ≤ s.balance owner o.buyer →
      ∀ r ∈ s.paymentsOf orderId, r.2.gatewayId = "wallet" ∨ r.2.status ≠ .paid

section Wallets

variable {active : Prop} {s : Shop} {owner orderId : String}

/-- A reward pays for no order. -/
theorem moves_qualifyTx {telegramId reward : ℤ} {o : Moment} (hs : s.InOrder) :
    (qualifyTx owner telegramId reward o).wp (fun _ t => Moves active s t)
      (fun _ _ => True) s := by
  simp only [qualifyTx, Tx.wp_bind, Tx.wp_read]
  cases s.referrals.get? (owner, telegramId) with
  | none => exact .refl hs
  | some r =>
      dsimp only
      split
      · exact .refl hs
      · simp only [Tx.wp_bind, Tx.wp_when, Tx.wp_write, Tx.wp_pure]
        constructor
        · intro _
          apply creditTx_spec
          · exact fun _ _ => moves_same hs rfl rfl rfl hs.charged
          · exact fun _ _ _ => moves_same hs rfl rfl rfl (hs.charged.enter fun _ => rfl)
          · exact fun _ _ => trivial
        · exact fun _ => moves_same hs rfl rfl rfl hs.charged

/-- Rewarding a referral moves nothing. -/
theorem alone_qualifyReferral {telegramId : ℤ} (hs : s.InOrder) :
    (qualifyReferral owner telegramId).Alone (Moves active) (fun _ t => t.InOrder)
      (fun _ t => t.InOrder) s := by
  refine Script.alone_bind.mpr (alone_step hs (fun o => ?_) fun _ => hs)
  have hmoves : Moves active s { s with
      referralRewards := s.referralRewards.upsert owner 0 id } :=
    moves_same hs rfl rfl rfl hs.charged
  refine ⟨hmoves, alone_step hmoves.inOrder (fun o => ?_) fun _ => hmoves.inOrder⟩
  apply Tx.wp_mono (moves_qualifyTx hmoves.inOrder)
  · exact fun _ t ht => ⟨ht, ht.inOrder⟩
  · exact fun _ _ h => h

/-- A debit of an order, with its payment. -/
theorem moves_payTx {current : Order} {kind : LedgerKind} {reference : String} {payment o : Moment}
    (hs : s.InOrder) (hcurrent : s.orders.get? orderId = some current)
    (hclient : current.clientId = "")
    (hreference : ∀ id, (kind = .purchase ∧ reference = "order:" ++ id ∨
      kind = .renewal ∧ reference = "renewal:" ++ id) → id = orderId)
    (hfree : current.amountMinor ≤ s.balance owner current.buyer →
      ∀ r ∈ s.paymentsOf orderId, r.2.gatewayId = "wallet" ∨ r.2.status ≠ .paid) :
    (payTx owner orderId current kind reference payment o).wp
      (fun _ t => Moves active s t ∧ ∃ o', t.orders.get? orderId = some o' ∧
        o'.clientId = "" ∧ o'.orderType = current.orderType)
      (fun _ _ => True) s := by
  -- what is left to do after the debit, which changes the wallets and the ledger only
  have hrest : ∀ wallets ledger, Charged ledger s.payments →
      (do
        let known ← Tx.read fun s => s.hasWalletPayment orderId owner
        Tx.when (known = false) (insertPayment orderId current "wallet" .paid reference payment)
        Tx.write fun s => s.updateOrder orderId fun r =>
          { r with
            status := .paid
            gatewayId := "wallet"
            paymentRef := reference
            updatedAt := o.now } : ShopTx Unit).wp
        (fun _ t => Moves active s t ∧ ∃ o', t.orders.get? orderId = some o' ∧
          o'.clientId = "" ∧ o'.orderType = current.orderType)
        (fun _ _ => True) { s with
          wallets := wallets
          ledger := ledger } := by
    intro wallets ledger hcharged
    simp only [insertPayment, Tx.wp_bind, Tx.wp_read, Tx.wp_when, Tx.wp_require, Tx.wp_write]
    have hpaid : ∀ payments, Charged ledger payments → Moves active s ({ s with
        wallets := wallets
        ledger := ledger
        payments := payments }.updateOrder orderId fun r =>
          { r with
            status := .paid
            gatewayId := "wallet"
            paymentRef := reference
            updatedAt := o.now }) := by
      intro payments hpayments
      apply moves_order hs
      · simp only [updateOrder_orders]
        rfl
      · rfl
      · rfl
      · exact hpayments
      · exact fun o => ⟨⟨rfl, rfl, rfl, rfl, fun _ => rfl⟩, rfl, rfl, rfl⟩
      · intro order horder
        rw [hcurrent] at horder
        cases horder
        exact .inr ⟨hclient, by simp⟩
    have hrow : (s.orders.update orderId fun r =>
        { r with
          status := .paid
          gatewayId := "wallet"
          paymentRef := reference
          updatedAt := o.now }).get? orderId = some { current with
        status := .paid
        gatewayId := "wallet"
        paymentRef := reference
        updatedAt := o.now } := by
      rw [Table.get?_update, if_pos rfl, hcurrent, Option.map_some]
    refine ⟨fun _ => ⟨fun _ => ⟨?_, _, hrow, hclient, rfl⟩, fun _ => trivial⟩,
      fun _ => ⟨hpaid _ hcharged, _, hrow, hclient, rfl⟩⟩
    exact hpaid _ (hcharged.insert fun h => (h rfl).elim)
  rw [payTx, Tx.wp_bind]
  apply wp_requirePlanCredit
  · rw [Tx.wp_bind]
    apply debitTx_spec
    · exact fun _ _ => hrest s.wallets s.ledger hs.charged
    · intro _ _ _ hbalance
      apply hrest
      apply hs.charged.debit
      · intro id hid
        apply hreference
        simpa [debited] using hid
      · intro id r hr horder hgateway
        have hmem : (id, r) ∈ s.paymentsOf orderId :=
          List.mem_filter.mpr ⟨Table.get?_eq_some_iff.mp hr, by simpa using horder⟩
        exact (hfree hbalance _ hmem).resolve_left hgateway
    · exact fun _ _ => trivial
  · exact fun _ => trivial

/-- Paying a purchase moves. -/
theorem alone_payPurchase (hs : s.InOrder)
    (hok : s.MayPay [.pending, .awaitingPayment, .paymentRejected, .paid] owner orderId) :
    (payPurchase owner orderId).Alone (Moves active) (fun _ _ => True) (fun _ _ => True) s := by
  refine Script.alone_bind.mpr (alone_look hs (fun _ order horder => ?_) fun _ => trivial)
  have hget := (Option.filter_eq_some_iff.mp (found_eq_ok horder)).1
  refine Script.alone_bind.mpr (alone_insist (fun hpurchase => ?_) fun _ => trivial)
  refine Script.alone_bind.mpr (alone_insist (fun _ => ?_) fun _ => trivial)
  split
  · rw [Script.alone_bind]
    apply Script.Alone.mono (alone_provisionOrder hs ?_)
    · intro _ t ht
      rw [Script.alone_bind]
      exact (alone_qualifyReferral ht.1).mono (fun _ _ _ => trivial) fun _ _ _ => trivial
    · exact fun _ _ _ => trivial
    · intro order' horder' _
      rw [hget] at horder'
      cases horder'
      exact hpurchase
  · refine Script.alone_bind.mpr (alone_look hs (fun _ paymentId _ => ?_) fun _ => trivial)
    refine Script.alone_bind.mpr (alone_step hs (fun o => ?_) fun _ => trivial)
    rw [payPurchaseTx, Tx.wp_bind]
    apply wp_orderTx
    intro current hcurrent howner
    simp only [demandPolicy, Tx.wp_bind, Tx.wp_require]
    refine ⟨fun hstatus => ?_, fun _ => trivial⟩
    have hclient := undelivered (hs.catalogue.sound _ current hcurrent) hstatus (by decide)
    apply Tx.wp_mono (moves_payTx hs hcurrent hclient ?_ ?_)
    · rintro _ t ⟨ht, -⟩
      refine ⟨ht, ?_⟩
      rw [Script.alone_bind]
      apply Script.Alone.mono (alone_provisionOrder ht.inOrder ?_)
      · intro _ u hu
        rw [Script.alone_bind]
        apply Script.Alone.mono (alone_qualifyReferral hu.1)
        · intro _ v hv
          exact Script.alone_bind.mpr (alone_look hv (fun _ _ _ => trivial) fun _ => trivial)
        · exact fun _ _ _ => trivial
      · exact fun _ _ _ => trivial
      · intro order' horder' _
        obtain ⟨order'', ho'', hfollows⟩ := ht.onward orderId order hget
        have hsame : order'' = order' := Option.some.inj (ho''.symm.trans horder')
        rw [← hsame, hfollows.orderType, hpurchase]
    · exact fun _ _ h => h
    · rintro id (⟨-, hid⟩ | ⟨hkind, -⟩)
      · exact ((String.append_right_inj _).mp hid).symm
      · cases hkind
    · exact hok current (Option.filter_eq_some_iff.mpr ⟨hcurrent, by simpa using howner⟩) hstatus

/-- The order has no client yet, and is a renewal. -/
def Renewing (s : Shop) (orderId : String) : Prop :=
  ∃ o, s.orders.get? orderId = some o ∧ o.clientId = "" ∧ o.orderType = .renewal

/-- The transaction that ends a renewal. -/
theorem moves_renewTx {target : String} {o : Moment} (hs : s.InOrder)
    (hrenewing : Renewing s orderId) (htarget : target ≠ "") :
    (renewTx orderId target o).wp (fun _ t => Moves active s t) (fun _ _ => True) s := by
  obtain ⟨order, ho, hclient, htype⟩ := hrenewing
  simp only [renewTx, Tx.wp_write]
  apply moves_service hs
  · simp only [updateOrder_orders]
    rfl
  · rfl
  · rfl
  · exact hs.charged
  · intro order' ho'
    rw [ho] at ho'
    cases ho'
    have hsound := hs.catalogue.sound _ order ho
    exact ⟨⟨fun _ => .inr (.inr ⟨rfl, htype⟩), fun _ => htarget, hsound.times⟩, rfl, rfl, rfl,
      rfl, fun h => (h hclient).elim⟩
  · intro order' ho' hwaiting
    have hsound := hs.catalogue.sound _ order' ho'
    rw [ho] at ho'
    cases ho'
    exact (hsound.held hwaiting hclient).elim

/-- Fixing the end of a renewal moves. -/
theorem alone_renewalExpiry {order : Order} {client : Managed} {s₀ : Shop} (hs : Since s₀ s)
    (hrenewing : Renewing s orderId) :
    (renewalExpiry orderId order client).Alone (Moves active)
      (fun _ t => Since s₀ t ∧ Renewing t orderId) (fun _ t => Since s₀ t) s := by
  unfold renewalExpiry
  split
  · refine Script.alone_bind.mpr (alone_look hs.1 (fun _ now _ => ?_) fun _ => hs)
    refine alone_step hs.1 (fun o => ?_) fun _ => hs
    simp only [renewalExpiryTx, Tx.wp_bind, Tx.wp_write, Tx.wp_read, Tx.wp_demand, Tx.wp_pure]
    refine ⟨fun saved hsaved => ?_, fun _ => trivial⟩
    have hmoves : Moves active s (s.updateOrder orderId fun r =>
        if r.renewalTargetExpiry ≤ 0 then
          { r with renewalTargetExpiry := max (now : ℤ) client.expiryTime + order.duration }
        else r) := by
      apply moves_order hs.1
      · simp only [updateOrder_orders]
        rfl
      · rfl
      · rfl
      · exact hs.1.charged
      · intro o
        split
        · exact ⟨⟨rfl, rfl, rfl, rfl, fun _ => rfl⟩, rfl, rfl, rfl⟩
        · exact ⟨.refl o, rfl, rfl, rfl⟩
      · intro o _
        split
        · exact .inl rfl
        · exact .inl rfl
    refine ⟨hmoves, hmoves.since hs, ?_⟩
    obtain ⟨o', ho', hclient, htype⟩ := hrenewing
    refine ⟨saved, hsaved, ?_⟩
    rw [updateOrder_orders, Table.get?_update, if_pos rfl, ho', Option.map_some] at hsaved
    rw [← Option.some.inj hsaved]
    split
    · exact ⟨hclient, htype⟩
    · exact ⟨hclient, htype⟩
  · exact ⟨hs, hrenewing⟩

/-- Renewing a client moves. -/
theorem alone_renewClient {target : String} {order : Order} (hs : s.InOrder)
    (hrenewing : Renewing s orderId) (htarget : target ≠ "") :
    (renewClient orderId target order).Alone (Moves active) (fun _ _ => True)
      (fun _ t => Since s t) s := by
  have hsince := Since.refl hs
  refine Script.alone_bind.mpr (alone_look hs (fun _ _ _ => ?_) fun _ => hsince)
  refine Script.alone_bind.mpr (alone_look hs (fun _ client _ => ?_) fun _ => hsince)
  refine Script.alone_bind.mpr (alone_insist (fun _ => ?_) fun _ => hsince)
  refine Script.alone_bind.mpr (alone_look hs (fun _ waiting _ => ?_) fun _ => hsince)
  refine Script.alone_bind.mpr (alone_insist (fun _ => ?_) fun _ => hsince)
  rw [Script.alone_bind]
  apply Script.Alone.mono (alone_renewalExpiry hsince hrenewing)
  · rintro expiry t ⟨ht, o', ho', hclient, htype⟩
    rw [Script.alone_bind]
    apply alone_managerUpdate ht.1
    · exact fun _ => rfl
    · intro u hu horders _
      have hrenewing' : Renewing u orderId := ⟨o', horders ▸ ho', hclient, htype⟩
      refine Script.alone_bind.mpr (alone_outside hu.inOrder (fun _ => ?_) fun _ => hu.since ht)
      refine Script.alone_bind.mpr
        (alone_step hu.inOrder (fun o => ?_) fun _ => hu.since ht)
      apply Tx.wp_mono (moves_renewTx hu.inOrder hrenewing' htarget)
      · intro _ v hv
        refine ⟨hv, ?_⟩
        exact Script.alone_bind.mpr
          (alone_look hv.inOrder (fun _ _ _ => trivial) fun _ => hv.since (hu.since ht))
      · exact fun _ _ h => h
    · exact fun _ u hu => hu.since ht
  · exact fun _ _ h => h

/-- Paying a renewal moves. -/
theorem alone_payRenewal (hs : s.InOrder) (hok : s.MayPay [.pending, .paid] owner orderId) :
    (payRenewal owner orderId).Alone (Moves active) (fun _ _ => True) (fun _ _ => True) s := by
  refine Script.alone_bind.mpr (alone_look hs (fun _ order horder => ?_) fun _ => trivial)
  have hget := (Option.filter_eq_some_iff.mp (found_eq_ok horder)).1
  refine Script.alone_bind.mpr (alone_insist (fun htype => ?_) fun _ => trivial)
  refine Script.alone_bind.mpr (alone_insist (fun _ => ?_) fun _ => trivial)
  refine Script.alone_bind.mpr (alone_insist (fun htarget => ?_) fun _ => trivial)
  refine Script.alone_bind.mpr (alone_look hs (fun _ paymentId _ => ?_) fun _ => trivial)
  refine Script.alone_bind.mpr (alone_step hs (fun o => ?_) fun _ => trivial)
  rw [payRenewalTx, Tx.wp_bind]
  apply wp_orderTx
  intro current hcurrent howner
  have hsame : current = order := Option.some.inj (hcurrent.symm.trans hget)
  subst hsame
  split
  · exact ⟨.refl hs, trivial⟩
  · simp only [demandPolicy, Tx.wp_bind, Tx.wp_require]
    refine ⟨fun hstatus => ?_, fun _ => trivial⟩
    have hclient := undelivered (hs.catalogue.sound _ current hcurrent) hstatus (by decide)
    apply Tx.wp_mono (moves_payTx hs hcurrent hclient ?_ ?_)
    · rintro _ t ⟨ht, o', ho', hclient', htype'⟩
      refine ⟨ht, ?_⟩
      have hrenewing : Renewing t orderId := ⟨o', ho', hclient', htype'.trans htype⟩
      apply Script.Alone.mono (alone_orNote (alone_renewClient ht.inOrder hrenewing htarget))
      · exact fun _ _ _ => trivial
      · exact fun _ _ _ => trivial
    · exact fun _ _ h => h
    · rintro id (⟨hkind, -⟩ | ⟨-, hid⟩)
      · cases hkind
      · exact ((String.append_right_inj _).mp hid).symm
    · exact hok current (Option.filter_eq_some_iff.mpr ⟨hcurrent, by simpa using howner⟩) hstatus

end Wallets

/-! ## Sequences of calls -/

/-- Calls about orders. -/
inductive OrderCall where
  | createOrder (owner : String) (buyer : ℤ) (offer : Offer)
  | createRenewalOrder (owner : String) (buyer : ℤ) (target : String) (offer : Offer)
  | startPayment (owner orderId gatewayId : String)
  | recordReceipt (owner : String) (buyer : ℤ) (reference : String)
  | rejectPayment (owner : String) (rowId : ℕ)
  | confirmPayment (owner orderId reference : String)
  | approvePayment (owner : String) (rowId : ℕ)
  | provisionOrder (orderId : String)
  | payPurchase (owner orderId : String)
  | payRenewal (owner orderId : String)
  | activateFirstConnections (limit : ℕ)

/-- The scripts of the calls; their results are dropped. -/
def OrderCall.script : OrderCall → ShopScript Unit
  | createOrder owner buyer offer => do let _ ← Commerce.createOrder owner buyer offer
  | createRenewalOrder owner buyer target offer => do
      let _ ← Commerce.createRenewalOrder owner buyer target offer
  | startPayment owner orderId gatewayId => Commerce.startPayment owner orderId gatewayId
  | recordReceipt owner buyer reference => Commerce.recordReceipt owner buyer reference
  | rejectPayment owner rowId => Commerce.rejectPayment owner rowId
  | confirmPayment owner orderId reference => do
      let _ ← Commerce.confirmPayment owner orderId reference
  | approvePayment owner rowId => do let _ ← Commerce.approvePayment owner rowId
  | provisionOrder orderId => Commerce.provisionOrder orderId
  | payPurchase owner orderId => Commerce.payPurchase owner orderId
  | payRenewal owner orderId => Commerce.payRenewal owner orderId
  | activateFirstConnections limit => Commerce.activateFirstConnections limit

/-- The call that activates services. -/
def OrderCall.Activates (k : OrderCall) : Prop :=
  ∃ limit, k = .activateFirstConnections limit

/-- What the shop must be like for a call: a payment is rejected, a renewal confirmed or
provisioned, and an order paid only where nothing has been delivered or paid before. -/
def orderOk : OrderCall → Shop → Prop
  | .rejectPayment owner rowId, s => ∀ r ∈ s.paymentRow owner rowId,
      ∀ o ∈ s.orders.get? r.2.orderId, o.clientId = ""
  | .confirmPayment owner orderId _, s => s.MayConfirm owner orderId
  | .approvePayment owner rowId, s => ∀ r ∈ s.paymentRow owner rowId,
      s.MayConfirm owner r.2.orderId
  | .provisionOrder orderId, s => ∀ o ∈ s.orders.get? orderId, o.clientId = "" →
      o.orderType = .purchase
  | .payPurchase owner orderId, s =>
      s.MayPay [.pending, .awaitingPayment, .paymentRejected, .paid] owner orderId
  | .payRenewal owner orderId, s => s.MayPay [.pending, .paid] owner orderId
  | _, _ => True

instance : ∀ k s, Decidable (orderOk k s)
  | .rejectPayment owner rowId, s => inferInstanceAs (Decidable (∀ r ∈ s.paymentRow owner rowId,
      ∀ o ∈ s.orders.get? r.2.orderId, o.clientId = ""))
  | .confirmPayment owner orderId _, s => inferInstanceAs (Decidable (s.MayConfirm owner orderId))
  | .approvePayment owner rowId, s => inferInstanceAs (Decidable
      (∀ r ∈ s.paymentRow owner rowId, s.MayConfirm owner r.2.orderId))
  | .provisionOrder orderId, s => inferInstanceAs (Decidable
      (∀ o ∈ s.orders.get? orderId, o.clientId = "" → o.orderType = .purchase))
  | .payPurchase owner orderId, s => inferInstanceAs (Decidable
      (s.MayPay [.pending, .awaitingPayment, .paymentRejected, .paid] owner orderId))
  | .payRenewal owner orderId, s =>
      inferInstanceAs (Decidable (s.MayPay [.pending, .paid] owner orderId))
  | .createOrder .., _ | .createRenewalOrder .., _ | .startPayment .., _
  | .recordReceipt .., _ | .activateFirstConnections _, _ => .isTrue trivial

/-- What the calls do, transaction by transaction. -/
theorem alone_script {k : OrderCall} {s : Shop} (hs : s.InOrder) (hok : orderOk k s) :
    k.script.Alone (Moves k.Activates) (fun _ _ => True) (fun _ _ => True) s := by
  cases k with
  | createOrder owner buyer offer => exact Script.alone_bind.mpr (alone_createOrder hs)
  | createRenewalOrder owner buyer target offer =>
      exact Script.alone_bind.mpr (alone_createRenewalOrder hs)
  | startPayment owner orderId gatewayId => exact alone_startPayment hs
  | recordReceipt owner buyer reference => exact alone_recordReceipt hs
  | rejectPayment owner rowId => exact alone_rejectPayment hs hok
  | confirmPayment owner orderId reference =>
      exact Script.alone_bind.mpr (alone_confirmPayment hs hok)
  | approvePayment owner rowId => exact Script.alone_bind.mpr (alone_approvePayment hs hok)
  | provisionOrder orderId =>
      exact (alone_provisionOrder hs hok).mono (fun _ _ _ => trivial) fun _ _ _ => trivial
  | payPurchase owner orderId => exact alone_payPurchase hs hok
  | payRenewal owner orderId => exact alone_payRenewal hs hok
  | activateFirstConnections limit =>
      have hactive : (OrderCall.activateFirstConnections limit).Activates = True :=
        eq_true ⟨limit, rfl⟩
      rw [hactive]
      exact alone_activateFirstConnections hs

/-- The other methods of the shop may leave anything in the other tables. -/
def Shop.besides (tables s : Shop) : Shop :=
  { tables with
    orders := s.orders
    payments := s.payments
    ledger := s.ledger
    managed := s.managed
    profiles := s.profiles }

/-- A shop that carries out calls about orders. -/
abbrev OrderSystem : Type 1 :=
  Pool OrderCall Moment ShopAction Shop Failure Unit

namespace OrderSystem

variable {w w' : OrderSystem}

/-- What happens to the shop. -/
def next : OrderSystem → PoolEvent OrderCall Moment Shop → Option OrderSystem :=
  Pool.next OrderCall.script Shop.besides

/-- The step relation of the shop. -/
def Step (w : OrderSystem) (e : PoolEvent OrderCall Moment Shop) (w' : OrderSystem) : Prop :=
  w.next e = some w'

/-- The calls come one after another. -/
def InTurn (w : OrderSystem) (e : PoolEvent OrderCall Moment Shop) : Prop :=
  Pool.InTurn (fun _ _ => True) w e

/-- The calls come one after another, each where its condition holds. -/
def Checked (w : OrderSystem) (e : PoolEvent OrderCall Moment Shop) : Prop :=
  Pool.InTurn orderOk w e

instance (w : OrderSystem) (e : PoolEvent OrderCall Moment Shop) : Decidable (w.InTurn e) :=
  Pool.decidableInTurn w e

instance (w : OrderSystem) (e : PoolEvent OrderCall Moment Shop) : Decidable (w.Checked e) :=
  Pool.decidableInTurn w e

/-- The shop is in order, and the running call keeps it so. -/
def Sound (w : OrderSystem) : Prop :=
  Pool.Alone Shop.InOrder (fun k => Moves k.Activates) w

/-- What one event does: the orders move on, and a waiting order is activated by an
activation only. -/
theorem Sound.step {e : PoolEvent OrderCall Moment Shop} (h : w.Sound)
    (hstep : Guarded Step Checked w e w') :
    w'.Sound ∧ Moves (∃ t ∈ w.threads, t.call.Activates) w.store w'.store := by
  have houtside : ∀ tables s, Shop.InOrder s → (Shop.besides tables s).InOrder :=
    fun _ _ hs => ⟨hs.catalogue, hs.charged⟩
  obtain ⟨hsound, hmoves⟩ := Pool.Alone.next h (fun _ _ => alone_script)
    (fun _ _ _ _ ht => ht.inOrder) houtside hstep.1 hstep.2
  refine ⟨hsound, ?_⟩
  rcases hmoves with hsame | ⟨t, ht, hmoves⟩ | ⟨tables, houtside⟩
  · rw [hsame]
    exact .refl h.inv
  · refine ⟨hmoves.inOrder, hmoves.onward, ?_⟩
    intro orderId o ho hwaiting
    obtain ⟨o', ho', hnext⟩ := hmoves.waits orderId o ho hwaiting
    exact ⟨o', ho', hnext.imp_right fun hnext => ⟨⟨t, ht, hnext.1⟩, hnext.2⟩⟩
  · rw [houtside]
    exact moves_same h.inv rfl rfl rfl h.inv.charged

/-- Orders move onward in every run. -/
theorem Sound.run {es : List (PoolEvent OrderCall Moment Shop)} (h : w.Sound)
    (hrun : Run (Guarded Step Checked) w es w') :
    w'.Sound ∧ Onward w.store.orders w'.store.orders := by
  refine ⟨hrun.invariant h fun _ _ _ ha hstep => (ha.step hstep).1, ?_⟩
  exact hrun.related (R := fun a b => Onward a.store.orders b.store.orders) h
    (fun _ _ _ ha hstep => (ha.step hstep).1) (fun _ => .refl _) (fun _ _ _ => .trans)
    fun _ _ _ ha hstep => (ha.step hstep).2.onward

end OrderSystem

/-! ## The life of an order -/

/-- A shop that has sold nothing yet; none of its clients belongs to an order. -/
structure Shop.Opening (s : Shop) : Prop where
  orders : s.orders = .empty
  payments : s.payments = .empty
  ledger : s.ledger = []
  managed : ∀ identity c, s.managed.get? identity = some c → ∀ orderId,
    c.comment ≠ orderComment orderId

/-- The clients of an order. -/
def Shop.clientsOf (s : Shop) (orderId : String) : List (String × Managed) :=
  s.managed.rows.filter fun r => r.2.comment = orderComment orderId

/-- An order with a client is delivered, an order has at most one client and a renewal
none, and an order paid from the wallet has no other paid payment. -/
structure Shop.Collected (s : Shop) : Prop where
  delivered : ∀ orderId o, s.orders.get? orderId = some o → o.clientId ≠ "" → o.Delivered
  clients : ∀ orderId, (s.clientsOf orderId).length ≤ 1
  renewals : ∀ orderId o, s.orders.get? orderId = some o → o.orderType = .renewal →
    s.clientsOf orderId = []
  charged : ∀ orderId, debited s.ledger orderId = true → ∀ r ∈ s.paymentsOf orderId,
    r.2.gatewayId ≠ "wallet" → r.2.status ≠ .paid

/-- A shop that opens is in order. -/
theorem Shop.Opening.inOrder {s : Shop} (h : s.Opening) : s.InOrder where
  catalogue :=
    { sound := fun _ _ ho => by
        rw [h.orders] at ho
        cases ho
      clients := fun identity c hc orderId hcomment => (h.managed identity c hc orderId hcomment).elim }
  charged := by
    intro orderId hdebit
    rw [h.ledger] at hdebit
    cases hdebit

/-- Rows of a table that all have the same key are at most one. -/
theorem length_le_one_of_key {κ ρ : Type} {rows : List (κ × ρ)} {k : κ}
    (hnodup : (rows.map Prod.fst).Nodup) (hkey : ∀ r ∈ rows, r.1 = k) : rows.length ≤ 1 := by
  rcases rows with _ | ⟨r, _ | ⟨r', rows⟩⟩
  · exact Nat.zero_le 1
  · exact le_refl 1
  · have hr := hkey r List.mem_cons_self
    have hr' := hkey r' (List.mem_cons_of_mem _ List.mem_cons_self)
    simp [hr, hr'] at hnodup

/-- A shop in order has collected what it delivered. -/
theorem Shop.InOrder.collected {s : Shop} (h : s.InOrder) : s.Collected where
  delivered orderId o ho := (h.catalogue.sound orderId o ho).delivered
  clients orderId := by
    have hclient : ∀ r ∈ s.clientsOf orderId, ∃ o p, s.orders.get? orderId = some o ∧
        s.profiles.get? o.owner = some p ∧ r.1 = orderIdentity p.prefixText orderId o.buyer := by
      intro r hr
      obtain ⟨hrow, hcomment⟩ := List.mem_filter.mp hr
      obtain ⟨o, p, ho, -, hp, hid⟩ := h.catalogue.clients r.1 r.2
        (Table.get?_eq_some_iff.mpr hrow) orderId (by simpa using hcomment)
      exact ⟨o, p, ho, hp, hid⟩
    rcases hlist : s.clientsOf orderId with _ | ⟨r, rows⟩
    · exact Nat.zero_le 1
    · rw [← hlist]
      obtain ⟨o, p, ho, hp, hid⟩ := hclient r (by rw [hlist]; exact List.mem_cons_self)
      apply length_le_one_of_key (k := r.1)
      · exact (List.filter_sublist.map Prod.fst).nodup s.managed.nodupKeys
      · intro r' hr'
        obtain ⟨o', p', ho', hp', hid'⟩ := hclient r' hr'
        rw [ho] at ho'
        cases ho'
        rw [hp] at hp'
        cases hp'
        rw [hid, hid']
  renewals orderId o ho hrenewal := by
    rw [Shop.clientsOf, List.filter_eq_nil_iff]
    intro r hr hcomment
    obtain ⟨o', p, ho', hpurchase, -⟩ := h.catalogue.clients r.1 r.2
      (Table.get?_eq_some_iff.mpr hr) orderId (by simpa using hcomment)
    rw [ho] at ho'
    cases ho'
    rw [hrenewal] at hpurchase
    cases hpurchase
  charged orderId hdebit r hr := by
    obtain ⟨hrow, horder⟩ := List.mem_filter.mp hr
    exact h.charged orderId hdebit r.1 r.2 (Table.get?_eq_some_iff.mpr hrow)
      (by simpa using horder)

/-- Over every sequence of calls each of which is made where its condition holds: orders
are collected once and have at most one client; what has been delivered stays delivered;
and an order that waits for its activation leaves that status by an activation only,
which fixes the time of the service and of its client. -/
theorem order_collected_once {s : Shop} {es : List (PoolEvent OrderCall Moment Shop)}
    {w : OrderSystem} (hs : s.Opening)
    (hrun : Run (Guarded OrderSystem.Step OrderSystem.Checked) (Pool.start s) es w) :
    w.store.Collected ∧
      (∀ es' w', Run (Guarded OrderSystem.Step OrderSystem.Checked) w es' w' →
        ∀ orderId o, w.store.orders.get? orderId = some o → o.clientId ≠ "" →
          ∃ o', w'.store.orders.get? orderId = some o' ∧ o'.clientId = o.clientId ∧
            o'.Delivered) ∧
      ∀ e w', Guarded OrderSystem.Step OrderSystem.Checked w e w' →
        ∀ orderId o, w.store.orders.get? orderId = some o →
          o.status = .provisionedWaitingActivation →
          ∃ o', w'.store.orders.get? orderId = some o' ∧
            (o'.status = .provisionedWaitingActivation ∨
              (∃ t ∈ w.threads, t.call.Activates) ∧ o'.Activated w'.store.managed) := by
  have hsound := (OrderSystem.Sound.run (Pool.alone_start hs.inOrder) hrun).1
  refine ⟨hsound.inv.collected, ?_, ?_⟩
  · intro es' w' hrun' orderId o ho hclient
    obtain ⟨hsound', honward⟩ := hsound.run hrun'
    obtain ⟨o', ho', hfollows⟩ := honward orderId o ho
    have hsame := hfollows.client hclient
    refine ⟨o', ho', hsame, ?_⟩
    exact (hsound'.inv.catalogue.sound orderId o' ho').delivered (by rwa [hsame])
  · exact fun e w' hstep => (hsound.step hstep).2.waits

/-! ### An old button -/

/-- A shop with one owner and one gateway. -/
def newShop : Shop :=
  { Shop.empty with
    accounts := Table.empty.insert "shop" ⟨.owner, false⟩
    profiles := Table.empty.insert "shop" ⟨"Shop", [1], "s-", 0, 0⟩
    gateways := Table.empty.insert ("shop", "card") true }

/-- A new shop opens. -/
theorem opening_newShop : newShop.Opening where
  orders := rfl
  payments := rfl
  ledger := rfl
  managed := fun _ _ hc => by cases hc

/-- The input of a transaction that inserts nothing. -/
def atOnce : Moment := ⟨1, "", none, 0, true⟩

/-- A call, and its transactions. -/
def wholeCall (k : OrderCall) (transactions : ℕ) : List (PoolEvent OrderCall Moment Shop) :=
  .enter k :: List.replicate transactions (.run 0 atOnce) ++ [.answer 0]

/-- An order that is paid through the gateway, delivered, and waits for its first use. -/
def deliveredOrder : List (PoolEvent OrderCall Moment Shop) :=
  [.enter (.createOrder "shop" 7 ⟨5000, "IRT", 1000, 30, 1, 1, [1], true⟩),
    .run 0 { atOnce with fresh := "order" }, .answer 0,
    .enter (.startPayment "shop" "order" "card"), .run 0 { atOnce with fresh := "payment" },
    .run 0 atOnce, .answer 0] ++ wholeCall (.confirmPayment "shop" "order" "paid") 15

/-- Its payment is rejected afterwards: the order has a client and is no longer delivered. -/
theorem rejected_delivery : ¬∀ s es w, Shop.Opening s →
    Run (Guarded OrderSystem.Step OrderSystem.InTurn) (Pool.start s) es w →
      w.store.Collected := by
  intro h
  have heval : (((deliveredOrder ++ wholeCall (.rejectPayment "shop" 1) 3).foldlM
      (fun w e => if OrderSystem.InTurn w e then w.next e else none) (Pool.start newShop)).map
        fun w => (w.store.orders.get? "order").map fun o => (o.status, o.clientId)) =
          some (some (.paymentRejected, "s-tg7_order")) := by
    decide +kernel
  obtain ⟨w, hrun, hobserved⟩ := Option.map_eq_some_iff.mp heval
  obtain ⟨o, ho, hfields⟩ := Option.map_eq_some_iff.mp hobserved
  rw [Prod.mk.injEq] at hfields
  have hclient : o.clientId ≠ "" := by
    rw [hfields.2]
    decide
  have hdelivered := (h _ _ w opening_newShop (Run.of_guarded_eval hrun)).delivered "order" o ho hclient
  simp [Order.Delivered, hfields.1] at hdelivered

/-- The order is activated instead. -/
theorem order_collected_once_activated : ∃ w : OrderSystem, w.store.Collected ∧
    (w.store.orders.get? "order").map (fun o => (o.status, o.activationExpiresAt)) =
      some (.provisioned, 2592000001) := by
  have heval : (((deliveredOrder ++ wholeCall (.activateFirstConnections 5) 9).foldlM
      (fun w e => if OrderSystem.Checked w e then w.next e else none) (Pool.start newShop)).map
        fun w => (w.store.orders.get? "order").map fun o => (o.status, o.activationExpiresAt)) =
          some (some (.provisioned, 2592000001)) := by
    decide +kernel
  obtain ⟨w, hrun, hobserved⟩ := Option.map_eq_some_iff.mp heval
  exact ⟨w, (order_collected_once opening_newShop (Run.of_guarded_eval hrun)).1, hobserved⟩

end Commerce
end DarkXray
