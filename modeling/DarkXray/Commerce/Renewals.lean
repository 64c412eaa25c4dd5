import DarkXray.Library.Runs
import DarkXray.Library.Sequences
import DarkXray.Commerce.Checkout

/-!
# Renewals

An order for a renewal fixes the end of the service when it is created.  It is paid and carried out
later, perhaps in several attempts, and other orders for the same service may have been created
and carried out in between.

Main results:

- Theorem {lit}`renews_payRenewal`: what an attempt, however far it gets, does to the orders and
  to the client.
- Theorem {lit}`RenewalState.Sound.step`: every order is carried out with the end that it fixed.
- Theorem {lit}`renewal_extends_iff`: an order extends the service by what was bought exactly if
  neither the clock nor the end of the service has passed what it was based on, and no other
  extension comes before a retry.
-/

namespace DarkXray
namespace Commerce

open Library Policy

/-! ## Scripts without interference -/

section Quiet

variable {α : Type} {R : Shop → Shop → Prop} {s : Shop} {q : α → Shop → Prop}
  {r : Failure → Shop → Prop}

/-- A transaction in a script without interference. -/
theorem quiet_step (hrefl : ∀ s, R s s) {body : Moment → ShopTx α}
    (h : ∀ o, (body o).wp (fun a t => R s t ∧ q a t) (fun _ _ => True) s) (hr : ∀ e, r e s) :
    (step body).Alone R q r s := by
  intro o
  rw [wp_commit]
  apply Tx.wp_mono (h o)
  · exact fun _ _ ht => ⟨fun _ => ht, fun e _ => ⟨hrefl s, hr e⟩⟩
  · exact fun e _ _ => ⟨hrefl s, hr e⟩

/-- A read in a script without interference. -/
theorem quiet_look (hrefl : ∀ s, R s s) {f : Moment → Shop → Except Failure α}
    (hq : ∀ o a, f o s = .ok a → q a s) (hr : ∀ e, r e s) : (look f).Alone R q r s := by
  apply quiet_step hrefl _ hr
  intro o
  simp only [Tx.wp_bind, Tx.wp_read, Tx.wp_ofExcept]
  exact ⟨fun a ha => ⟨hrefl s, hq o a ha⟩, fun _ _ => trivial⟩

/-- An outside answer in a script without interference. -/
theorem quiet_outside (hrefl : ∀ s, R s s) {q : Bool → Shop → Prop} (hq : ∀ b, q b s)
    (hr : ∀ e, r e s) : outside.Alone R q r s :=
  quiet_step hrefl (fun o => ⟨hrefl s, hq o.answer⟩) hr

/-- A check in a script without interference. -/
theorem quiet_insist {p : Prop} [Decidable p] {message : String} {q : Unit → Shop → Prop}
    (hq : p → q () s) (hr : ∀ e, r e s) : (insist p message).Alone R q r s := by
  rw [insist, Script.alone_ofExcept]
  constructor
  · intro _ h
    exact hq (ensure_ok_iff.mp h)
  · exact fun e _ => hr e

end Quiet

/-! ## What stays -/

/-- What an order has fixed, once it has fixed it. -/
structure Order.SameTerms (o o' : Order) : Prop where
  createdAt : o'.createdAt = o.createdAt
  durationDays : o'.durationDays = o.durationDays
  target : o'.targetClientId = o.targetClientId
  expiry : 0 < o.renewalTargetExpiry → o'.renewalTargetExpiry = o.renewalTargetExpiry

/-- The client of an order has the end of service that the order says. -/
def Shop.Extended (orderId : String) (s : Shop) : Prop :=
  ∃ o m, s.orders.get? orderId = some o ∧ 0 < o.renewalTargetExpiry ∧
    s.managed.get? o.targetClientId = some m ∧ m.expiryTime = o.renewalTargetExpiry

/-- An order that has been extended stays so under changes that keep its target. -/
theorem Shop.Extended.updateOrder {orderId : String} {s : Shop} {f : Order → Order}
    (h : s.Extended orderId) (hf : ∀ o, (f o).renewalTargetExpiry = o.renewalTargetExpiry ∧
      (f o).targetClientId = o.targetClientId) : (s.updateOrder orderId f).Extended orderId := by
  obtain ⟨o, m, ho, hpos, hm, hexpiry⟩ := h
  refine ⟨f o, m, ?_, ?_, ?_, ?_⟩
  · rw [updateOrder_orders, Table.get?_update, if_pos rfl, ho, Option.map_some]
  · rw [(hf o).1]
    exact hpos
  · rw [(hf o).2]
    exact hm
  · rw [(hf o).1]
    exact hexpiry

/-- A step of an attempt to renew the service of an order. -/
structure Renews (orderId : String) (s t : Shop) : Prop where
  orders : ∀ id o, s.orders.get? id = some o → ∃ o', t.orders.get? id = some o' ∧ o.SameTerms o' ∧
    (o'.status = .renewed → o.status = .renewed ∨ id = orderId ∧ t.Extended orderId)
  client : t.managed = s.managed ∨ t.Extended orderId

/-- An order has its own terms. -/
theorem Order.SameTerms.refl (o : Order) : o.SameTerms o :=
  ⟨rfl, rfl, rfl, fun _ => rfl⟩

/-- Having the same terms is transitive. -/
theorem Order.SameTerms.trans {o o' o'' : Order} (h : o.SameTerms o') (h' : o'.SameTerms o'') :
    o.SameTerms o'' := by
  constructor
  · exact h'.createdAt.trans h.createdAt
  · exact h'.durationDays.trans h.durationDays
  · exact h'.target.trans h.target
  · intro hpos
    have hsame := h.expiry hpos
    exact (h'.expiry (hsame ▸ hpos)).trans hsame

/-- The same terms have the same duration. -/
theorem Order.SameTerms.duration {o o' : Order} (h : o.SameTerms o') : o'.duration = o.duration := by
  unfold Order.duration
  rw [h.durationDays]

/-- No change renews nothing. -/
theorem Renews.refl (orderId : String) (s : Shop) : Renews orderId s s := by
  constructor
  · exact fun _ o ho => ⟨o, ho, .refl o, fun h => .inl h⟩
  · exact .inl rfl

/-- The end of service stays until a step writes it again. -/
theorem Renews.extended {orderId : String} {s t : Shop} (h : Renews orderId s t)
    (hs : s.Extended orderId) : t.Extended orderId := by
  rcases h.client with hsame | ht
  · obtain ⟨o, m, ho, hpos, hm, hexpiry⟩ := hs
    obtain ⟨o', ho', hterms, _⟩ := h.orders orderId o ho
    have hkept := hterms.expiry hpos
    refine ⟨o', m, ho', by rw [hkept]; exact hpos, ?_, by rw [hkept]; exact hexpiry⟩
    rw [hsame, hterms.target]
    exact hm
  · exact ht

/-- Changes for the renewal of an order compose. -/
theorem Renews.trans {orderId : String} {s t u : Shop} (h : Renews orderId s t)
    (h' : Renews orderId t u) : Renews orderId s u := by
  constructor
  · intro id o ho
    obtain ⟨o', ho', hterms, hrenewed⟩ := h.orders id o ho
    obtain ⟨o'', ho'', hterms', hrenewed'⟩ := h'.orders id o' ho'
    refine ⟨o'', ho'', hterms.trans hterms', ?_⟩
    intro hstatus
    rcases hrenewed' hstatus with hbefore | hnew
    · rcases hrenewed hbefore with hold | ⟨hid, hext⟩
      · exact .inl hold
      · exact .inr ⟨hid, h'.extended hext⟩
    · exact .inr hnew
  · rcases h.client with hsame | hext
    · rw [← hsame]
      exact h'.client
    · exact .inr (h'.extended hext)

/-- A change of an order's row that keeps what the order has fixed. -/
theorem Renews.update {orderId : String} {s u : Shop} {f : Order → Order}
    (horders : u.orders = s.orders) (hmanaged : u.managed = s.managed)
    (hterms : ∀ o, s.orders.get? orderId = some o → o.SameTerms (f o))
    (hstatus : ∀ o, s.orders.get? orderId = some o → (f o).status = .renewed →
      o.status = .renewed ∨ (u.updateOrder orderId f).Extended orderId) :
    Renews orderId s (u.updateOrder orderId f) := by
  constructor
  · intro key o ho
    rw [updateOrder_orders, horders, Table.get?_update]
    by_cases hkey : key = orderId
    · subst hkey
      rw [if_pos rfl, ho]
      refine ⟨f o, rfl, hterms o ho, ?_⟩
      intro h
      rcases hstatus o ho h with hold | hext
      · exact .inl hold
      · exact .inr ⟨rfl, hext⟩
    · rw [if_neg hkey]
      exact ⟨o, ho, .refl o, fun h => .inl h⟩
  · exact .inl hmanaged

/-- A change of anything but the orders and the clients. -/
theorem Renews.besides {orderId : String} {s t : Shop} (horders : t.orders = s.orders)
    (hmanaged : t.managed = s.managed) : Renews orderId s t := by
  constructor
  · rw [horders]
    exact fun _ o ho => ⟨o, ho, .refl o, fun h => .inl h⟩
  · exact .inl hmanaged

/-! ## One attempt -/

section Attempts

variable {α : Type} {orderId : String} {s : Shop} {q : α → Shop → Prop}
  {r : Failure → Shop → Prop}

/-- The order has fixed its end of service. -/
def Shop.Fixed (orderId : String) (expiry : ℤ) (target : String) (s : Shop) : Prop :=
  0 < expiry ∧ ∃ o, s.orders.get? orderId = some o ∧ o.renewalTargetExpiry = expiry ∧
    o.targetClientId = target

/-- The row of an order that was paid from a wallet. -/
def Order.paidByWallet (reference : String) (now : ℕ) (r : Order) : Order :=
  { r with
    status := .paid
    gatewayId := "wallet"
    paymentRef := reference
    updatedAt := now }

/-- Taking the payment leaves what the order has fixed, and the clients. -/
theorem renews_payTx {owner reference : String} {current : Order} {kind : LedgerKind}
    {payment o : Moment} {q : Unit → Shop → Prop}
    (hq : ∀ t, (∃ f : Order → Order, t.orders = s.orders.update orderId f ∧
      ∀ o, (f o).renewalTargetExpiry = o.renewalTargetExpiry ∧
        (f o).targetClientId = o.targetClientId) → q () t) :
    (payTx owner orderId current kind reference payment o).wp
      (fun a t => Renews orderId s t ∧ q a t) (fun _ _ => True) s := by
  have hlast : ∀ u : Shop, u.orders = s.orders → u.managed = s.managed →
      Renews orderId s (u.updateOrder orderId (Order.paidByWallet reference o.now)) ∧
      q () (u.updateOrder orderId (Order.paidByWallet reference o.now)) := by
    intro u horders hmanaged
    constructor
    · apply Renews.update horders hmanaged
      · exact fun _ _ => ⟨rfl, rfl, rfl, fun _ => rfl⟩
      · intro _ _ h
        cases h
    · apply hq
      refine ⟨Order.paidByWallet reference o.now, ?_, fun _ => ⟨rfl, rfl⟩⟩
      rw [updateOrder_orders, horders]
  have hpaid : ∀ u : Shop, u.orders = s.orders → u.managed = s.managed →
      Tx.wp (do
        let known ← Tx.read fun s => s.hasWalletPayment orderId owner
        Tx.when (known = false) (insertPayment orderId current "wallet" .paid reference payment)
        Tx.write fun s => s.updateOrder orderId (Order.paidByWallet reference o.now) :
          ShopTx Unit)
        (fun a t => Renews orderId s t ∧ q a t) (fun _ _ => True) u := by
    intro u horders hmanaged
    simp only [insertPayment, Tx.wp_bind, Tx.wp_read, Tx.wp_when, Tx.wp_require, Tx.wp_write]
    constructor
    · intro _
      exact ⟨fun _ => hlast _ horders hmanaged, fun _ => trivial⟩
    · exact fun _ => hlast u horders hmanaged
  unfold payTx
  rw [Tx.wp_bind]
  apply wp_requirePlanCredit
  · rw [Tx.wp_bind]
    apply debitTx_spec
    · exact fun _ _ => hpaid s rfl rfl
    · exact fun _ _ _ _ => hpaid _ rfl rfl
    · exact fun _ _ => trivial
  · exact fun _ => trivial

/-- A note about a failure changes nothing for the renewal. -/
theorem renews_note {e : Failure} {q : Unit → Shop → Prop} (hq : ∀ t, q () t) (hr : ∀ e, r e s) :
    (noteFulfillment orderId e).Alone (Renews orderId) q r s := by
  apply quiet_step (Renews.refl _) _ hr
  intro o
  simp only [Tx.wp_write]
  constructor
  · apply Renews.update rfl rfl
    · exact fun _ _ => ⟨rfl, rfl, rfl, fun _ => rfl⟩
    · exact fun _ _ h => .inl h
  · exact hq _

/-- The end of service that the client gets is fixed in the order. -/
theorem renews_renewalExpiry {order : Order} {client : Managed} {q : ℤ → Shop → Prop}
    (horder : ∃ o, s.orders.get? orderId = some o ∧
      o.renewalTargetExpiry = order.renewalTargetExpiry ∧ o.targetClientId = order.targetClientId)
    (hq : ∀ expiry t, t.Fixed orderId expiry order.targetClientId → q expiry t)
    (hr : ∀ e, r e s) :
    (renewalExpiry orderId order client).Alone (Renews orderId) q r s := by
  obtain ⟨o, ho, hexpiry, htarget⟩ := horder
  unfold renewalExpiry
  by_cases hunset : order.renewalTargetExpiry ≤ 0
  · rw [if_pos hunset, Script.alone_bind]
    apply quiet_look (Renews.refl _) _ hr
    intro _ now _
    apply quiet_step (Renews.refl _) _ hr
    intro _
    simp only [renewalExpiryTx, Tx.wp_bind, Tx.wp_write, Tx.wp_read, Tx.wp_demand, Tx.wp_pure]
    refine ⟨?_, fun _ => trivial⟩
    intro saved hsaved
    constructor
    · apply Renews.update rfl rfl
      · intro r _
        split
        · exact ⟨rfl, rfl, rfl, fun hpos => by omega⟩
        · exact .refl r
      · intro r _
        split
        · exact fun h => .inl h
        · exact fun h => .inl h
    · have hday : 0 < order.duration := by
        unfold Order.duration day
        omega
      rw [updateOrder_orders, Table.get?_update, if_pos rfl, ho, Option.map_some,
        Option.some.injEq, if_pos (by omega)] at hsaved
      apply hq
      refine ⟨?_, saved, ?_, rfl, ?_⟩
      · rw [← hsaved]
        dsimp only
        omega
      · rw [updateOrder_orders, Table.get?_update, if_pos rfl, ho, Option.map_some,
          if_pos (by omega), ← hsaved]
      · rw [← hsaved]
        exact htarget
  · rw [if_neg hunset]
    exact hq _ _ ⟨by omega, o, ho, hexpiry, htarget⟩

/-- The client gets the end of service that the order has fixed. -/
theorem renews_managerUpdate {expiry : ℤ} {target : String} {f : Managed → Managed}
    {q : Unit → Shop → Prop} (hfixed : s.Fixed orderId expiry target)
    (hf : ∀ c, (f c).expiryTime = expiry) (hq : ∀ t, t.Extended orderId → q () t)
    (hr : ∀ e t, r e t) : (managerUpdate target f).Alone (Renews orderId) q r s := by
  obtain ⟨hpos, o, ho, hexpiry, htarget⟩ := hfixed
  unfold managerUpdate
  rw [Script.alone_bind]
  apply quiet_outside (Renews.refl _) _ fun e => hr e _
  intro _
  rw [Script.alone_bind]
  apply quiet_step (Renews.refl _) _ fun e => hr e _
  intro _
  simp only [stageUpdate, Tx.wp_bind, Tx.wp_read, Tx.wp_ofExcept, Tx.wp_write]
  refine ⟨?_, fun _ _ => trivial⟩
  intro c hc
  have hext : Shop.Extended orderId { s with managed := s.managed.update target f } := by
    refine ⟨o, f c, ho, by omega, ?_, by rw [hf, hexpiry]⟩
    dsimp only
    rw [Table.get?_update, if_pos htarget, htarget, found_eq_ok hc, Option.map_some]
  constructor
  · constructor
    · exact fun _ o ho => ⟨o, ho, .refl o, fun h => .inl h⟩
    · exact .inr hext
  · rw [Script.alone_bind]
    apply quiet_outside (Renews.refl _) _ fun e => hr e _
    exact fun _ => hq _ hext

/-- The client of a paid order is renewed. -/
theorem renews_renewClient {order : Order}
    (horder : ∃ o, s.orders.get? orderId = some o ∧
      o.renewalTargetExpiry = order.renewalTargetExpiry ∧
        o.targetClientId = order.targetClientId) :
    (renewClient orderId order.targetClientId order).Alone (Renews orderId) (fun _ _ => True)
      (fun _ _ => True) s := by
  unfold renewClient
  rw [Script.alone_bind]
  apply quiet_look (Renews.refl _) _ fun _ => trivial
  intro _ _ _
  rw [Script.alone_bind]
  apply quiet_look (Renews.refl _) _ fun _ => trivial
  intro _ client _
  rw [Script.alone_bind]
  apply quiet_insist _ fun _ => trivial
  intro _
  rw [Script.alone_bind]
  apply quiet_look (Renews.refl _) _ fun _ => trivial
  intro _ waiting _
  rw [Script.alone_bind]
  apply quiet_insist _ fun _ => trivial
  intro _
  rw [Script.alone_bind]
  apply renews_renewalExpiry horder _ fun _ => trivial
  intro expiry t hfixed
  rw [Script.alone_bind]
  apply renews_managerUpdate hfixed (fun _ => rfl) _ fun _ _ => trivial
  intro u hext
  rw [Script.alone_bind]
  apply quiet_outside (Renews.refl _) _ fun _ => trivial
  intro _
  rw [Script.alone_bind]
  apply quiet_step (Renews.refl _) _ fun _ => trivial
  intro o
  simp only [renewTx, Tx.wp_write]
  constructor
  · apply Renews.update rfl rfl
    · exact fun _ _ => ⟨rfl, rfl, rfl, fun _ => rfl⟩
    · exact fun _ _ _ => .inr (hext.updateOrder fun _ => ⟨rfl, rfl⟩)
  · rw [Script.alone_bind]
    apply quiet_look (Renews.refl _) _ fun _ => trivial
    exact fun _ _ _ => trivial

/-- An attempt to pay and to carry out a renewal. -/
theorem renews_payRenewal (owner orderId : String) (s : Shop) :
    (payRenewal owner orderId).Alone (Renews orderId) (fun _ _ => True) (fun _ _ => True) s := by
  unfold payRenewal
  rw [Script.alone_bind]
  apply quiet_look (Renews.refl _) _ fun _ => trivial
  intro _ order horder
  have hget := (Option.filter_eq_some_iff.mp (found_eq_ok horder)).1
  rw [Script.alone_bind]
  apply quiet_insist _ fun _ => trivial
  intro _
  rw [Script.alone_bind]
  apply quiet_insist _ fun _ => trivial
  intro _
  rw [Script.alone_bind]
  apply quiet_insist _ fun _ => trivial
  intro _
  rw [Script.alone_bind]
  apply quiet_look (Renews.refl _) _ fun _ => trivial
  intro _ paymentId _
  rw [Script.alone_bind]
  apply quiet_step (Renews.refl _) _ fun _ => trivial
  intro o
  rw [payRenewalTx, Tx.wp_bind]
  apply wp_orderTx
  intro current _ _
  split
  · exact ⟨.refl _ _, trivial⟩
  · simp only [demandPolicy, Tx.wp_bind, Tx.wp_require]
    refine ⟨fun _ => ?_, fun _ => trivial⟩
    apply renews_payTx
    rintro t ⟨f, horders, hf⟩
    rw [if_neg (by decide)]
    unfold orNote
    rw [Script.alone_handle]
    have hrow : ∃ o, t.orders.get? orderId = some o ∧
        o.renewalTargetExpiry = order.renewalTargetExpiry ∧
          o.targetClientId = order.targetClientId := by
      refine ⟨f order, ?_, (hf order).1, (hf order).2⟩
      rw [horders, Table.get?_update, if_pos rfl, hget, Option.map_some]
    apply (renews_renewClient hrow).mono
    · exact fun _ _ _ => trivial
    · intro e u _
      rw [Script.alone_bind]
      apply renews_note _ fun _ => trivial
      exact fun _ => trivial

end Attempts

/-! ## A new order -/

/-- A step that creates an order leaves the others and the clients alone. -/
structure Enters (s t : Shop) : Prop where
  orders : ∀ id o, s.orders.get? id = some o → t.orders.get? id = some o
  managed : t.managed = s.managed

/-- No entry is made. -/
theorem Enters.refl (s : Shop) : Enters s s :=
  ⟨fun _ _ ho => ho, rfl⟩

/-- Entries add up. -/
theorem Enters.trans {s t u : Shop} (h : Enters s t) (h' : Enters t u) : Enters s u :=
  ⟨fun id o ho => h'.orders id o (h.orders id o ho), h'.managed.trans h.managed⟩

/-- The end of service of a client. -/
def Shop.expiry (identity : String) (s : Shop) : ℤ :=
  ((s.managed.get? identity).map Managed.expiryTime).getD 0

/-- A new order fixes the end of service that it is to lead to. -/
theorem enters_createRenewalOrder (owner : String) (buyer : ℤ) (target : String) (offer : Offer)
    (s : Shop) :
    (createRenewalOrder owner buyer target offer).Alone Enters
      (fun id t => s.orders.get? id = none ∧ ∃ o, t.orders.get? id = some o ∧
        o.status = .pending ∧
          o.renewalTargetExpiry = max (o.createdAt : ℤ) (s.expiry target) + o.duration)
      (fun _ _ => True) s := by
  unfold createRenewalOrder
  rw [Script.alone_bind]
  apply quiet_look Enters.refl _ fun _ => trivial
  intro _ _ _
  rw [Script.alone_bind]
  apply quiet_insist _ fun _ => trivial
  intro _
  rw [Script.alone_bind]
  apply quiet_look Enters.refl _ fun _ => trivial
  intro _ _ _
  rw [Script.alone_bind]
  apply quiet_look Enters.refl _ fun _ => trivial
  intro _ client hclient
  rw [Script.alone_bind]
  apply quiet_insist _ fun _ => trivial
  intro _
  rw [Script.alone_bind]
  apply quiet_look Enters.refl _ fun _ => trivial
  intro _ _ _
  rw [Script.alone_bind]
  apply quiet_insist _ fun _ => trivial
  intro _
  apply quiet_step Enters.refl _ fun _ => trivial
  intro o
  unfold insertOrder
  dsimp only
  rw [Tx.wp_bind]
  apply wp_requirePlanCredit
  · simp only [Tx.wp_bind, Tx.wp_read, Tx.wp_require, Tx.wp_write, Tx.wp_pure]
    refine ⟨fun hfresh => ?_, fun _ => trivial⟩
    constructor
    · exact ⟨fun key row hrow => Table.get?_insert_of_some hrow _ _, rfl⟩
    · refine ⟨hfresh, newOrder owner buyer offer .renewal target
        (max (o.now : ℤ) client.expiryTime + (max 1 offer.durationDays).toNat * day) o.now,
        ?_, rfl, ?_⟩
      · rw [Table.get?_insert hfresh, if_pos rfl]
      have hexpiry : s.expiry target = client.expiryTime := by
        unfold Shop.expiry
        rw [found_eq_ok hclient]
        rfl
      rw [hexpiry]
      rfl
  · exact fun _ => trivial

/-! ## Runs -/

/-- What an attempt that had an effect on the client, or finished the order, made of the end of
service; {lit}`now` is when it ended. -/
structure Attempt where
  orderId : String
  before : ℤ
  now : ℕ
  after : ℤ
deriving DecidableEq

/-- The end of service moves by at least what was bought. -/
def Attempt.Extends (a : Attempt) (duration : ℕ) : Prop :=
  max a.before (a.now : ℤ) + duration ≤ a.after

/-- The shop; the renewals that were ordered, with the end of service at that time; and the
attempts to carry them out, oldest first. -/
structure RenewalState where
  shop : Shop
  ordered : List (String × ℤ)
  attempts : List Attempt

/-- What happens: a renewal is ordered or paid, from one transaction to the next or cut off; or
anything else changes the shop. -/
inductive RenewalEvent where
  | order (owner : String) (buyer : ℤ) (target : String) (offer : Offer) (moments : List Moment)
  | pay (owner orderId : String) (moments : List Moment)
  | other (shop : Shop)

/-- When a call ended. -/
def callTime (moments : List Moment) : ℕ :=
  moments.foldr (fun o n => max o.now n) 0

/-- The order was carried out. -/
def Shop.renewed (orderId : String) (s : Shop) : Bool :=
  (s.orders.get? orderId).any fun o => decide (o.status = .renewed)

/-- What a call of {lit}`pay_renewal` did. -/
def attemptOf (orderId : String) (moments : List Moment) (s t : Shop) : List Attempt :=
  match s.orders.get? orderId with
  | none => []
  | some o =>
      if t.managed.get? o.targetClientId ≠ s.managed.get? o.targetClientId ∨
          s.renewed orderId = false ∧ t.renewed orderId = true then
        [⟨orderId, s.expiry o.targetClientId, callTime moments, t.expiry o.targetClientId⟩]
      else []

/-- The renewal that a call of {lit}`create_renewal_order` ordered. -/
def orderedBy (target : String) (s : Shop) (result : Option (Except Failure String)) :
    List (String × ℤ) :=
  match result with
  | some (.ok id) => [(id, s.expiry target)]
  | some (.error _) => []
  | none => []

/-- A new order is made with the end that the service had. -/
theorem orderedBy_mem {target : String} {s : Shop} {result : Option (Except Failure String)}
    {entry : String × ℤ} (h : entry ∈ orderedBy target s result) :
    ∃ id, result = some (.ok id) ∧ (id, s.expiry target) = entry := by
  unfold orderedBy at h
  split at h
  · rename_i id
    exact ⟨id, rfl, (List.mem_singleton.mp h).symm⟩
  · cases h
  · cases h

/-- The other parts of the program keep what orders have fixed, and carry no renewal out. -/
def Besides (s t : Shop) : Prop :=
  ∀ id o, s.orders.get? id = some o → ∃ o', t.orders.get? id = some o' ∧ o.SameTerms o' ∧
    (o'.status = .renewed → o.status = .renewed)

/-- A call of {lit}`create_renewal_order`. -/
def RenewalState.order (owner : String) (buyer : ℤ) (target : String) (offer : Offer)
    (moments : List Moment) (w : RenewalState) : RenewalState :=
  let r := (createRenewalOrder owner buyer target offer).exec moments w.shop
  ⟨r.2, w.ordered ++ orderedBy target w.shop r.1, w.attempts⟩

/-- A call of {lit}`pay_renewal`, which holds the manager's lock. -/
def RenewalState.pay (owner orderId : String) (moments : List Moment) (w : RenewalState) :
    RenewalState :=
  let r := (payRenewal owner orderId).exec moments w.shop
  ⟨r.2, w.ordered, w.attempts ++ attemptOf orderId moments w.shop r.2⟩

/-- One event. -/
def renewalStep (w : RenewalState) (e : RenewalEvent) (w' : RenewalState) : Prop :=
  match e with
  | .order owner buyer target offer moments => w' = w.order owner buyer target offer moments
  | .pay owner orderId moments => w' = w.pay owner orderId moments
  | .other shop => Besides w.shop shop ∧ w' = { w with shop := shop }

/-- An order is a step. -/
theorem renewalStep_order (w : RenewalState) (owner : String) (buyer : ℤ) (target : String)
    (offer : Offer) (moments : List Moment) : renewalStep w (.order owner buyer target offer moments)
      (w.order owner buyer target offer moments) :=
  rfl

/-- A payment is a step. -/
theorem renewalStep_pay (w : RenewalState) (owner orderId : String) (moments : List Moment) :
    renewalStep w (.pay owner orderId moments) (w.pay owner orderId moments) :=
  rfl

/-- What a renewal order stands for: it leads to the end of service that it fixed when it was
created, and has been carried out if it says so. -/
structure Ledgered (w : RenewalState) (id : String) (expiry : ℤ) (o : Order) : Prop where
  row : w.shop.orders.get? id = some o
  fixed : o.renewalTargetExpiry = max (o.createdAt : ℤ) expiry + o.duration
  attempts : ∀ a ∈ w.attempts, a.orderId = id → a.after = o.renewalTargetExpiry
  renewed : o.status = .renewed → ∃ a ∈ w.attempts, a.orderId = id

/-- The invariant of the runs. -/
structure RenewalState.Sound (w : RenewalState) : Prop where
  known : ∀ a ∈ w.attempts, ∃ o, w.shop.orders.get? a.orderId = some o
  ledgered : ∀ r ∈ w.ordered, ∃ o, Ledgered w r.1 r.2 o

/-- A fixed end is positive. -/
theorem Ledgered.pos {w : RenewalState} {id : String} {expiry : ℤ} {o : Order}
    (h : Ledgered w id expiry o) : 0 < o.renewalTargetExpiry := by
  have hduration : 0 < o.duration := by
    unfold Order.duration day
    omega
  have hfixed := h.fixed
  omega

/-- A change of the shop that keeps what orders have fixed. -/
theorem Ledgered.keep {w w' : RenewalState} {id : String} {expiry : ℤ} {o o' : Order}
    (h : Ledgered w id expiry o) (hrow : w'.shop.orders.get? id = some o')
    (hterms : o.SameTerms o')
    (hattempts : ∀ a ∈ w'.attempts, a.orderId = id → a ∈ w.attempts ∨
      a.after = o'.renewalTargetExpiry)
    (hrenewed : o'.status = .renewed →
      o.status = .renewed ∧ w.attempts ⊆ w'.attempts ∨ ∃ a ∈ w'.attempts, a.orderId = id) :
    Ledgered w' id expiry o' := by
  have hkept := hterms.expiry h.pos
  constructor
  · exact hrow
  · rw [hkept, h.fixed, hterms.createdAt, hterms.duration]
  · intro a ha hid
    rcases hattempts a ha hid with hold | hnew
    · rw [hkept]
      exact h.attempts a hold hid
    · exact hnew
  · intro hstatus
    rcases hrenewed hstatus with ⟨hold, hsub⟩ | hnew
    · obtain ⟨a, ha, hid⟩ := h.renewed hold
      exact ⟨a, hsub ha, hid⟩
    · exact hnew

/-- An attempt of an order that has fixed its end of service leads to it. -/
theorem attemptOf_after {orderId : String} {moments : List Moment} {s t : Shop} {o o' : Order}
    (h : Renews orderId s t) (ho : s.orders.get? orderId = some o)
    (ho' : t.orders.get? orderId = some o') {a : Attempt}
    (ha : a ∈ attemptOf orderId moments s t) :
    a.orderId = orderId ∧ a.after = o'.renewalTargetExpiry := by
  unfold attemptOf at ha
  rw [ho] at ha
  dsimp only at ha
  split_ifs at ha with hcond
  · rw [List.mem_singleton] at ha
    subst ha
    refine ⟨rfl, ?_⟩
    obtain ⟨o'', ho'', hterms, hrenewed⟩ := h.orders orderId o ho
    rw [ho', Option.some.injEq] at ho''
    subst ho''
    have hext : t.Extended orderId := by
      rcases hcond with hclient | ⟨hbefore, hafter⟩
      · rcases h.client with hsame | hext
        · rw [hsame] at hclient
          exact absurd rfl hclient
        · exact hext
      · unfold Shop.renewed at hbefore hafter
        rw [ho] at hbefore
        rw [ho'] at hafter
        have hold : o.status ≠ .renewed := by simpa using hbefore
        have hnew : o'.status = .renewed := by simpa using hafter
        rcases hrenewed hnew with hstatus | ⟨_, hext⟩
        · exact absurd hstatus hold
        · exact hext
    obtain ⟨r, m, hr, hpos, hm, hexpiry⟩ := hext
    rw [ho', Option.some.injEq] at hr
    subst hr
    unfold Shop.expiry
    rw [← hterms.target, hm]
    exact hexpiry
  · cases ha

/-- An order that an attempt finished has that attempt. -/
theorem attemptOf_renewed {orderId : String} (moments : List Moment) {s t : Shop} {o o' : Order}
    (ho : s.orders.get? orderId = some o) (ho' : t.orders.get? orderId = some o')
    (hbefore : o.status ≠ .renewed) (hafter : o'.status = .renewed) :
    ∃ a ∈ attemptOf orderId moments s t, a.orderId = orderId := by
  unfold attemptOf
  rw [ho]
  dsimp only
  rw [if_pos]
  · exact ⟨_, List.mem_singleton_self _, rfl⟩
  · right
    unfold Shop.renewed
    rw [ho, ho']
    simp [hbefore, hafter]

/-- An attempt is about the order that is paid. -/
theorem attemptOf_id {orderId : String} {moments : List Moment} {s t : Shop} {a : Attempt}
    (ha : a ∈ attemptOf orderId moments s t) :
    a.orderId = orderId ∧ ∃ o, s.orders.get? orderId = some o := by
  unfold attemptOf at ha
  cases ho : s.orders.get? orderId with
  | none =>
      rw [ho] at ha
      cases ha
  | some o =>
      rw [ho] at ha
      dsimp only at ha
      split_ifs at ha
      · rw [List.mem_singleton] at ha
        subst ha
        exact ⟨rfl, o, rfl⟩
      · cases ha

/-- A new order starts without an attempt and with the end of service that it leads to; the others
stay. -/
theorem RenewalState.Sound.order {w : RenewalState} (hw : w.Sound) (owner : String) (buyer : ℤ)
    (target : String) (offer : Offer) (moments : List Moment) :
    (w.order owner buyer target offer moments).Sound := by
  unfold RenewalState.order
  dsimp only
  obtain ⟨henters, hok, _⟩ := (enters_createRenewalOrder owner buyer target offer w.shop).exec
    Enters.refl (fun _ _ _ => Enters.trans) moments
  generalize (createRenewalOrder owner buyer target offer).exec moments w.shop = r at henters hok ⊢
  constructor
  · intro a ha
    obtain ⟨o, ho⟩ := hw.known a ha
    exact ⟨o, henters.orders _ o ho⟩
  · intro entry hentry
    rcases List.mem_append.mp hentry with hold | hnew
    · obtain ⟨o, ho⟩ := hw.ledgered entry hold
      refine ⟨o, ho.keep (henters.orders _ o ho.row) (.refl o) ?_ ?_⟩
      · exact fun a ha _ => .inl ha
      · exact fun hstatus => .inl ⟨hstatus, fun _ ha => ha⟩
    · obtain ⟨id, hresult, rfl⟩ := orderedBy_mem hnew
      obtain ⟨hnone, o, ho, hstatus, hfixed⟩ := hok id hresult
      refine ⟨o, ho, hfixed, ?_, ?_⟩
      · intro a ha hid
        obtain ⟨old, hold⟩ := hw.known a ha
        rw [hid, hnone] at hold
        cases hold
      · intro hrenewed
        rw [hstatus] at hrenewed
        cases hrenewed

/-- An attempt leads to the end of service that its order has fixed. -/
theorem RenewalState.Sound.pay {w : RenewalState} (hw : w.Sound) (owner orderId : String)
    (moments : List Moment) : (w.pay owner orderId moments).Sound := by
  unfold RenewalState.pay
  dsimp only
  obtain ⟨hrenews, _⟩ := (renews_payRenewal owner orderId w.shop).exec
    (Renews.refl orderId) (fun _ _ _ => Renews.trans) moments
  generalize ((payRenewal owner orderId).exec moments w.shop).2 = t at hrenews ⊢
  constructor
  · intro a ha
    rcases List.mem_append.mp ha with hold | hnew
    · obtain ⟨o, ho⟩ := hw.known a hold
      obtain ⟨o', ho', _⟩ := hrenews.orders _ o ho
      exact ⟨o', ho'⟩
    · obtain ⟨hid, o, ho⟩ := attemptOf_id hnew
      obtain ⟨o', ho', _⟩ := hrenews.orders _ o ho
      exact ⟨o', by rw [hid]; exact ho'⟩
  · intro entry hentry
    obtain ⟨o, ho⟩ := hw.ledgered entry hentry
    obtain ⟨o', ho', hterms, hstatus⟩ := hrenews.orders _ o ho.row
    refine ⟨o', ho.keep ho' hterms ?_ ?_⟩
    · intro a ha hid
      rcases List.mem_append.mp ha with hold | hnew
      · exact .inl hold
      · right
        have hsame : entry.1 = orderId := hid.symm.trans (attemptOf_id hnew).1
        rw [hsame] at ho'
        exact (attemptOf_after hrenews (hsame ▸ ho.row) ho' hnew).2
    · intro hrenewed
      by_cases hbefore : o.status = .renewed
      · exact .inl ⟨hbefore, fun _ ha => List.mem_append_left _ ha⟩
      · right
        obtain ⟨hid, _⟩ := (hstatus hrenewed).resolve_left hbefore
        rw [hid] at ho'
        obtain ⟨a, ha, hsame⟩ := attemptOf_renewed moments (hid ▸ ho.row) ho' hbefore hrenewed
        exact ⟨a, List.mem_append_right _ ha, hsame.trans hid.symm⟩

/-- The other parts of the program keep what orders have fixed. -/
theorem RenewalState.Sound.other {w : RenewalState} {shop : Shop} (hw : w.Sound)
    (hbesides : Besides w.shop shop) : ({ w with shop := shop }).Sound := by
  constructor
  · intro a ha
    obtain ⟨o, ho⟩ := hw.known a ha
    obtain ⟨o', ho', _⟩ := hbesides _ o ho
    exact ⟨o', ho'⟩
  · intro entry hentry
    obtain ⟨o, ho⟩ := hw.ledgered entry hentry
    obtain ⟨o', ho', hterms, hstatus⟩ := hbesides _ o ho.row
    refine ⟨o', ho.keep ho' hterms ?_ ?_⟩
    · exact fun a ha _ => .inl ha
    · exact fun hrenewed => .inl ⟨hstatus hrenewed, fun _ ha => ha⟩

/-- Every event keeps the invariant: orders are carried out with the end of service that they
fixed. -/
theorem RenewalState.Sound.step {w w' : RenewalState} {e : RenewalEvent} (hw : w.Sound)
    (h : renewalStep w e w') : w'.Sound := by
  cases e with
  | order owner buyer target offer moments =>
      cases h
      exact hw.order owner buyer target offer moments
  | pay owner orderId moments =>
      cases h
      exact hw.pay owner orderId moments
  | other shop =>
      obtain ⟨hbesides, rfl⟩ := h
      exact hw.other hbesides

/-- Every order of a run is carried out with the end that it fixed. -/
theorem RenewalState.Sound.run {w w' : RenewalState} {es : List RenewalEvent} (hw : w.Sound)
    (h : Run renewalStep w es w') : w'.Sound := by
  induction h with
  | nil => exact hw
  | snoc _ hlast ih => exact ih.step hlast

/-- The attempts of an order that had an effect, oldest first. -/
def RenewalState.attemptsOf (w : RenewalState) (id : String) : List Attempt :=
  w.attempts.filter fun a => decide (a.orderId = id)

/-- The attempts of an order, together, extend the service by what was bought: the first one does,
and the retries take nothing back of what the service has gained since. -/
def ExtendOnce (duration : ℕ) : List Attempt → Prop
  | [] => False
  | a :: retries => a.Extends duration ∧ ∀ b ∈ retries, b.before ≤ b.after

/-- What the attempts of an order meet: at the first one, neither the clock nor the end of the
service has passed {lit}`base`, which the order was based on; and at no retry has another extension
come in between, which the end of the service shows. -/
def Undisturbed (base : ℤ) (duration : ℕ) : List Attempt → Prop
  | [] => False
  | a :: retries => max a.before (a.now : ℤ) ≤ base ∧ ∀ b ∈ retries, b.before ≤ base + duration

/-- Attempts that all lead to one end of service extend it exactly if nothing comes in between. -/
theorem extendOnce_iff {base : ℤ} {duration : ℕ} {attempts : List Attempt}
    (h : ∀ a ∈ attempts, a.after = base + duration) :
    ExtendOnce duration attempts ↔ Undisturbed base duration attempts := by
  cases attempts with
  | nil => rfl
  | cons a retries =>
      have hfirst : a.Extends duration ↔ max a.before (a.now : ℤ) ≤ base := by
        unfold Attempt.Extends
        rw [h a List.mem_cons_self]
        omega
      have hretries : (∀ b ∈ retries, b.before ≤ b.after) ↔
          ∀ b ∈ retries, b.before ≤ base + duration := by
        constructor
        · intro hall b hb
          rw [← h b (List.mem_cons_of_mem _ hb)]
          exact hall b hb
        · intro hall b hb
          rw [h b (List.mem_cons_of_mem _ hb)]
          exact hall b hb
      exact and_congr hfirst hretries

/-- In every run, every attempt to carry a renewal order out leads to the same end of service; and
the attempts of an order that was carried out extend the service by what was bought exactly if, at
the first one, neither the clock nor the end of the service has passed the later one of the time
when it was created and the end of the service at that time, and no other extension comes between
it and a retry. -/
theorem renewal_extends_iff {shop : Shop} {w : RenewalState} {es : List RenewalEvent}
    (hrun : Run renewalStep ⟨shop, [], []⟩ es w) {id : String} {expiry : ℤ}
    (hordered : (id, expiry) ∈ w.ordered) :
    ∃ o, w.shop.orders.get? id = some o ∧
      (∀ a ∈ w.attemptsOf id, a.after = max (o.createdAt : ℤ) expiry + o.duration) ∧
      (o.status = .renewed → w.attemptsOf id ≠ []) ∧
      (ExtendOnce o.duration (w.attemptsOf id) ↔
        Undisturbed (max (o.createdAt : ℤ) expiry) o.duration (w.attemptsOf id)) := by
  have hsound : w.Sound := by
    apply RenewalState.Sound.run _ hrun
    constructor
    · intro a ha
      cases ha
    · intro r hr
      cases hr
  obtain ⟨o, ho⟩ := hsound.ledgered _ hordered
  have hattempts : ∀ a ∈ w.attemptsOf id, a.after = max (o.createdAt : ℤ) expiry + o.duration := by
    intro a ha
    obtain ⟨hmem, hid⟩ := List.mem_filter.mp ha
    exact (ho.attempts a hmem (by simpa using hid)).trans ho.fixed
  refine ⟨o, ho.row, hattempts, ?_, extendOnce_iff hattempts⟩
  intro hrenewed
  obtain ⟨b, hb, hid⟩ := ho.renewed hrenewed
  exact List.ne_nil_of_mem (List.mem_filter.mpr ⟨hb, by simpa using hid⟩)

/-! ### Two orders for one service -/

/-- A shop with a customer whose service ends on the tenth day. -/
def serviceShop : Shop :=
  { Shop.empty with
    wallets := Table.empty.insert ("shop", 7) 20000
    orders := Table.empty.insert "origin"
      { newOrder "shop" 7 ⟨5000, "IRT", 1000, 30, 1, 1, [1], false⟩ .purchase "" 0 0 with
        status := .provisioned
        clientId := "svc" }
    managed := Table.empty.insert "svc" ⟨"shop", "", 7, 864000000, 1000, 1, 1⟩
    accounts := Table.empty.insert "shop" ⟨.owner, false⟩ }

/-- The inputs of a call at one time. -/
def momentsAt (now : ℕ) (fresh : String) : List Moment :=
  List.replicate 20 ⟨now, fresh, none, 0, true⟩

/-- The customer orders 30 days. -/
def RenewalState.orderMonth (id : String) (now : ℕ) (w : RenewalState) : RenewalState :=
  w.order "shop" 7 "svc" ⟨5000, "IRT", 1000, 30, 1, 1, [1], false⟩ (momentsAt now id)

/-- The customer pays; the call is cut off after some steps. -/
def RenewalState.payMonth (id : String) (now steps : ℕ) (w : RenewalState) : RenewalState :=
  w.pay "shop" id ((momentsAt now ("pay-" ++ id)).take steps)

/-- A state that calls lead to. -/
def RenewalState.Comes (w : RenewalState) : Prop :=
  ∃ es, Run renewalStep ⟨serviceShop, [], []⟩ es w

/-- A month is ordered in a run. -/
theorem RenewalState.Comes.orderMonth {w : RenewalState} (h : w.Comes) (id : String) (now : ℕ) :
    (w.orderMonth id now).Comes := by
  obtain ⟨es, hrun⟩ := h
  exact ⟨_, hrun.snoc (renewalStep_order w _ _ _ _ _)⟩

/-- A month is paid in a run. -/
theorem RenewalState.Comes.payMonth {w : RenewalState} (h : w.Comes) (id : String)
    (now steps : ℕ) : (w.payMonth id now steps).Comes := by
  obtain ⟨es, hrun⟩ := h
  exact ⟨_, hrun.snoc (renewalStep_pay w _ _ _)⟩

/-- A renewal is ordered. -/
def firstOrdered : RenewalState :=
  (⟨serviceShop, [], []⟩ : RenewalState).orderMonth "first" 1

/-- Its payment is cut off when the client has been changed. -/
def firstCut : RenewalState :=
  firstOrdered.payMonth "first" 3 9

/-- It is retried. -/
def firstRetried : RenewalState :=
  firstCut.payMonth "first" 6 20

/-- Another renewal is ordered at once, and both are paid. -/
def twoPaid : RenewalState :=
  ((firstOrdered.orderMonth "second" 2).payMonth "first" 3 20).payMonth "second" 4 20

/-- Another renewal is ordered and paid before the first one is retried. -/
def takenBack : RenewalState :=
  ((firstCut.orderMonth "second" 4).payMonth "second" 5 20).payMonth "first" 6 20

/-- The first order comes in a run. -/
theorem comes_firstOrdered : firstOrdered.Comes :=
  RenewalState.Comes.orderMonth ⟨[], Run.nil⟩ "first" 1

/-- The interrupted payment comes in a run. -/
theorem comes_firstCut : firstCut.Comes :=
  comes_firstOrdered.payMonth "first" 3 9

/-- The retried payment comes in a run. -/
theorem comes_firstRetried : firstRetried.Comes :=
  comes_firstCut.payMonth "first" 6 20

/-- Two paid orders come in a run. -/
theorem comes_twoPaid : twoPaid.Comes :=
  ((comes_firstOrdered.orderMonth "second" 2).payMonth "first" 3 20).payMonth "second" 4 20

/-- The retry after another renewal comes in a run. -/
theorem comes_takenBack : takenBack.Comes :=
  ((comes_firstCut.orderMonth "second" 4).payMonth "second" 5 20).payMonth "first" 6 20

/-- The row of a renewal, with the end of service when it was ordered, and its attempts. -/
def RenewalState.seen (w : RenewalState) (id : String) :
    Option (OrderStatus × ℤ) × List Attempt × List ℤ :=
  ((w.shop.orders.get? id).map fun o => (o.status, o.durationDays), w.attemptsOf id,
    (w.ordered.filter fun r => decide (r.1 = id)).map Prod.snd)

/-- A renewal that was carried out without extending the service by what was bought. -/
def RenewalState.Loses (w : RenewalState) (id : String) : Prop :=
  ∃ o expiry, (id, expiry) ∈ w.ordered ∧ w.shop.orders.get? id = some o ∧ o.status = .renewed ∧
    ¬ExtendOnce o.duration (w.attemptsOf id)

/-- An end that is seen has been fixed. -/
theorem ordered_of_seen {w : RenewalState} {id : String} {row : Option (OrderStatus × ℤ)}
    {attempts : List Attempt} {expiry : ℤ} (h : w.seen id = (row, attempts, [expiry])) :
    (id, expiry) ∈ w.ordered := by
  obtain ⟨-, hrest⟩ := Prod.mk.inj h
  obtain ⟨-, hordered⟩ := Prod.mk.inj hrest
  obtain ⟨r, hr, rfl⟩ : ∃ r ∈ w.ordered.filter fun r => decide (r.1 = id), r.2 = expiry :=
    List.mem_map.mp (hordered ▸ List.mem_singleton_self _)
  obtain ⟨hmem, hid⟩ := List.mem_filter.mp hr
  obtain rfl : r.1 = id := by simpa using hid
  exact hmem

/-- A row that is seen is in the shop. -/
theorem row_of_seen {w : RenewalState} {id : String} {attempts : List Attempt} {expiries : List ℤ}
    (h : w.seen id = (some (.renewed, 30), attempts, expiries)) :
    ∃ o, w.shop.orders.get? id = some o ∧ o.status = .renewed ∧ o.duration = 30 * day := by
  obtain ⟨o, ho, hfields⟩ := Option.map_eq_some_iff.mp (Prod.mk.inj h).1
  obtain ⟨hstatus, hdays⟩ := Prod.mk.inj hfields
  refine ⟨o, ho, hstatus, ?_⟩
  rw [Order.duration, hdays]
  rfl

/-- A renewal of 30 days whose attempts do not extend the service by 30 days. -/
theorem loses_of_seen {w : RenewalState} {id : String} {attempts : List Attempt} {expiry : ℤ}
    (h : w.seen id = (some (.renewed, 30), attempts, [expiry]))
    (hnot : ¬ExtendOnce (30 * day) attempts) : w.Loses id := by
  obtain ⟨o, ho, hstatus, hduration⟩ := row_of_seen h
  refine ⟨o, expiry, ordered_of_seen h, ho, hstatus, ?_⟩
  have hattempts : w.attemptsOf id = attempts := (Prod.mk.inj (Prod.mk.inj h).2).1
  rw [hduration, hattempts]
  exact hnot

/-- The customer pays for 60 days and the service is extended by 30: the second of two orders leads
to the same end as the first one, or the retry of the first one takes the second one back. -/
theorem renewals_overlap :
    (twoPaid.Comes ∧ twoPaid.Loses "second") ∧ takenBack.Comes ∧ takenBack.Loses "first" := by
  have htwo : twoPaid.seen "second" =
      (some (.renewed, 30), [⟨"second", 3456000000, 4, 3456000000⟩], [864000000]) := by
    decide +kernel
  have hback : takenBack.seen "first" = (some (.renewed, 30),
      [⟨"first", 864000000, 3, 3456000000⟩, ⟨"first", 6048000000, 6, 3456000000⟩],
        [864000000]) := by
    decide +kernel
  constructor
  · refine ⟨comes_twoPaid, loses_of_seen htwo ?_⟩
    simp [ExtendOnce, Attempt.Extends, day]
  · refine ⟨comes_takenBack, loses_of_seen hback ?_⟩
    simp [ExtendOnce]

/-- A renewal that is cut off and retried extends the service by its 30 days. -/
theorem renewal_extends_retried : ∃ o, firstRetried.shop.orders.get? "first" = some o ∧
    o.status = .renewed ∧ (firstRetried.attemptsOf "first").length = 2 ∧
      ExtendOnce o.duration (firstRetried.attemptsOf "first") := by
  have hseen : firstRetried.seen "first" = (some (.renewed, 30),
      [⟨"first", 864000000, 3, 3456000000⟩, ⟨"first", 3456000000, 6, 3456000000⟩],
        [864000000]) ∧
      (firstRetried.shop.orders.get? "first").map Order.createdAt = some 1 := by
    decide +kernel
  obtain ⟨es, hrun⟩ := comes_firstRetried
  obtain ⟨o, ho, -, -, hiff⟩ := renewal_extends_iff hrun (ordered_of_seen hseen.1)
  obtain ⟨o', ho', hstatus, hduration⟩ := row_of_seen hseen.1
  obtain rfl : o' = o := Option.some.inj (ho'.symm.trans ho)
  have hattempts := (Prod.mk.inj (Prod.mk.inj hseen.1).2).1
  have hcreated : o'.createdAt = 1 := by
    have hmap := hseen.2
    rw [ho', Option.map_some] at hmap
    exact Option.some.inj hmap
  refine ⟨o', ho', hstatus, by rw [hattempts]; rfl, hiff.mpr ?_⟩
  rw [hattempts, hcreated, hduration]
  simp [Undisturbed, day]

end Commerce
end DarkXray
