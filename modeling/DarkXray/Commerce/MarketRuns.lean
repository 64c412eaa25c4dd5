import Mathlib.Algebra.Ring.Int.Defs
import DarkXray.Commerce.Marketplace
import DarkXray.Library.Custody

/-!
# Payments of representative orders

A payment of a representative order takes the money in one transaction, and from then
on the order is in its hands: it delivers a panel, or it gives the money back.

Main results:

- Theorems {lit}`Booked.debit`, {lit}`Booked.deliver` and {lit}`Booked.refund`: the
  ledger of an order through its payment.
- Theorem {lit}`Shop.Sold.unsold`: while a purchase is being paid for, its representative
  has not been provisioned.
- Theorem {lit}`keeps_script`: the calls of the marketplace keep the custody of the
  orders, transaction by transaction.
- Theorem {lit}`order_all_or_nothing`: over every interleaving that avoids the defects of
  the marketplace an order is paid and delivered, or neither, and a failed payment
  leaves the representatives alone.
-/

namespace DarkXray
namespace Commerce

open Library Policy

/-! ## The ledger of an order -/

/-- Kinds of entries that belong to representative orders. -/
def LedgerKind.isRep : LedgerKind → Bool
  | .repPurchase | .repRenewal | .repRefund => true
  | .topup | .purchase | .renewal | .referral => false

/-- An entry that references an order. -/
def LedgerEntry.isOf (e : LedgerEntry) (orderId : String) : Bool :=
  ((e.kind = .repPurchase || e.kind = .repRenewal) &&
      e.reference = "representative:" ++ orderId) ||
    (e.kind = .repRefund && e.reference = "refund:" ++ orderId)

/-- The sum of the entries that reference an order. -/
def repDelta (ledger : List LedgerEntry) (orderId : String) : ℤ :=
  ((ledger.filter (·.isOf orderId)).map LedgerEntry.deltaMinor).sum

/-- The order has been delivered. -/
def RepOrderStatus.delivered (st : RepOrderStatus) : Bool :=
  st = .provisioned || st = .renewed

/-- The order has been refunded. -/
def refunded (ledger : List LedgerEntry) (orderId : String) : Prop :=
  ∃ e ∈ ledger, e.kind = .repRefund ∧ e.reference = "refund:" ++ orderId

/-- The entries of an order fit its status. -/
structure Booked (ledger : List LedgerEntry) (orderId : String) (r : RepOrder) : Prop where
  unpriced : r.amountMinor ≤ 0 → repDelta ledger orderId = 0 ∧ r.status ≠ .failedRefunded
  priced : 0 < r.amountMinor → repDelta ledger orderId =
    if r.status = .paid ∨ r.status.delivered then -r.amountMinor else 0
  debited : 0 < r.amountMinor → r.status ≠ .pending →
    ∃ e ∈ ledger, e.owner = r.owner ∧ e.kind = r.debitKind ∧
      e.reference = "representative:" ++ orderId
  kept : r.status ≠ .failedRefunded → ¬refunded ledger orderId
  negative : r.amountMinor < 0 → r.status = .pending

/-- The order is being paid for, or it has been delivered. -/
def RepOrderStatus.active (st : RepOrderStatus) : Bool :=
  st = .paid || st.delivered

/-- An order has what was paid for: it has been delivered; a free one need not be. -/
def RepOrder.Served (r : RepOrder) : Prop :=
  r.status.active = true ∧ (0 < r.amountMinor → r.status.delivered = true)

/-- A delivered order is served. -/
theorem RepOrder.served_of_delivered {r : RepOrder} (h : r.status.delivered = true) : r.Served :=
  ⟨by rw [RepOrderStatus.active, h, Bool.or_true], fun _ => h⟩

/-- There is a subscription for a representative: it has been provisioned. -/
def Shop.subscribed (s : Shop) (rep : String) : Bool :=
  s.subscriptions.rows.any fun r => r.2.representativeId = rep

/-- An active purchase has its representative to itself, and representatives that have
been provisioned have been bought. -/
structure Shop.Sold (s : Shop) : Prop where
  single : ∀ orderId orderId' r r', s.repOrders.get? orderId = some r →
    s.repOrders.get? orderId' = some r' → r.isPurchase = true → r'.isPurchase = true →
    r.representativeId = r'.representativeId → r.status.active = true →
    r'.status.active = true → orderId = orderId'
  bought : ∀ rep, s.subscribed rep = true → ∃ orderId r, s.repOrders.get? orderId = some r ∧
    r.isPurchase = true ∧ r.representativeId = rep ∧ r.Served

/-- Every order is booked, entries only reference orders that exist, and no
representative is sold twice. -/
structure Shop.MarketBooks (s : Shop) : Prop where
  booked : ∀ orderId r, s.repOrders.get? orderId = some r → Booked s.ledger orderId r
  known : ∀ e ∈ s.ledger, ∀ orderId, e.isOf orderId = true → s.repOrders.get? orderId ≠ none
  sold : s.Sold

section Entries

variable {ledger : List LedgerEntry} {e : LedgerEntry} {orderId : String} {r : RepOrder}

/-- A new entry counts for its order. -/
@[simp]
theorem repDelta_append : repDelta (ledger ++ [e]) orderId =
    repDelta ledger orderId + if e.isOf orderId then e.deltaMinor else 0 := by
  by_cases h : e.isOf orderId
  · simp [repDelta, List.filter_append, h]
  · simp [repDelta, List.filter_append, h]

/-- Entries of other orders do not count. -/
theorem repDelta_append_other {entries : List LedgerEntry}
    (h : ∀ e ∈ entries, e.isOf orderId = false) :
    repDelta (ledger ++ entries) orderId = repDelta ledger orderId := by
  have hnone : entries.filter (·.isOf orderId) = [] := by
    simpa [List.filter_eq_nil_iff] using h
  simp [repDelta, List.filter_append, hnone]

/-- An entry references one order. -/
theorem isOf_unique {orderId' : String} (h : e.isOf orderId = true)
    (h' : e.isOf orderId' = true) : orderId = orderId' := by
  simp only [LedgerEntry.isOf, Bool.or_eq_true, Bool.and_eq_true, decide_eq_true_eq] at h h'
  rcases h with ⟨hkind, href⟩ | ⟨hkind, href⟩
  · rcases h' with ⟨-, href'⟩ | ⟨hkind', -⟩
    · exact (String.append_right_inj _).mp (href.symm.trans href')
    · rw [hkind'] at hkind
      simp at hkind
  · rcases h' with ⟨hkind', -⟩ | ⟨-, href'⟩
    · rw [hkind] at hkind'
      simp at hkind'
    · exact (String.append_right_inj _).mp (href.symm.trans href')

/-- Entries that do not reference an order leave its books alone. -/
theorem Booked.append_other {entries : List LedgerEntry} (h : Booked ledger orderId r)
    (hother : ∀ e ∈ entries, e.isOf orderId = false) : Booked (ledger ++ entries) orderId r where
  unpriced hamount := by
    rw [repDelta_append_other hother]
    exact h.unpriced hamount
  priced hamount := by
    rw [repDelta_append_other hother]
    exact h.priced hamount
  debited hamount hstatus := by
    obtain ⟨e, he, hentry⟩ := h.debited hamount hstatus
    exact ⟨e, List.mem_append_left _ he, hentry⟩
  kept hstatus := by
    rintro ⟨e, he, hkind, href⟩
    rcases List.mem_append.mp he with hold | hnew
    · exact h.kept hstatus ⟨e, hold, hkind, href⟩
    · have hof := hother e hnew
      simp [LedgerEntry.isOf, hkind, href] at hof
  negative := h.negative

/-- The books of a new order. -/
theorem booked_new (hstatus : r.status = .pending)
    (hnone : ∀ e ∈ ledger, e.isOf orderId = false) : Booked ledger orderId r := by
  have hdelta : repDelta ledger orderId = 0 := by
    have hfilter : ledger.filter (·.isOf orderId) = [] := by
      simpa [List.filter_eq_nil_iff] using hnone
    simp [repDelta, hfilter]
  constructor
  · intro _
    simp [hdelta, hstatus]
  · intro _
    simp [hdelta, hstatus, RepOrderStatus.delivered]
  · exact fun _ hne => (hne hstatus).elim
  · rintro - ⟨e, he, hkind, href⟩
    have hof := hnone e he
    simp [LedgerEntry.isOf, hkind, href] at hof
  · exact fun _ => hstatus

/-- The entry of a debit. -/
def debitEntry (fresh orderId : String) (telegramId : ℤ) (r : RepOrder) : LedgerEntry :=
  ⟨fresh, r.owner, telegramId, -r.amountMinor, r.debitKind, "representative:" ++ orderId⟩

/-- A debit belongs to its order. -/
theorem debitEntry_isOf (fresh : String) (telegramId : ℤ) :
    (debitEntry fresh orderId telegramId r).isOf orderId = true := by
  unfold debitEntry RepOrder.debitKind LedgerEntry.isOf
  split
  · simp
  · simp

/-- The first debit of an order with a price. -/
theorem Booked.debit (h : Booked ledger orderId r) (hamount : 0 < r.amountMinor)
    (hstatus : r.status = .pending) (fresh : String) (telegramId : ℤ) :
    Booked (ledger ++ [debitEntry fresh orderId telegramId r]) orderId
      { r with status := .paid } where
  unpriced hfree := absurd hfree (by dsimp only; omega)
  priced _ := by
    have hdelta := h.priced hamount
    rw [repDelta_append, if_pos (debitEntry_isOf fresh telegramId), hdelta]
    simp [hstatus, RepOrderStatus.delivered, debitEntry]
  debited _ _ := ⟨_, List.mem_append_right _ (List.mem_singleton_self _), rfl, rfl, rfl⟩
  kept _ := by
    rintro ⟨e, he, hkind, href⟩
    rcases List.mem_append.mp he with hold | hnew
    · exact h.kept (by simp [hstatus]) ⟨e, hold, hkind, href⟩
    · rw [List.mem_singleton.mp hnew] at hkind
      unfold debitEntry RepOrder.debitKind at hkind
      split at hkind
      · cases hkind
      · cases hkind
  negative hnegative := absurd hnegative (by dsimp only; omega)

/-- An order without a price may take any status but the refunded one. -/
theorem Booked.unprice {st : RepOrderStatus} (h : Booked ledger orderId r)
    (hamount : r.amountMinor = 0) (hst : st ≠ .failedRefunded) :
    Booked ledger orderId { r with status := st } where
  unpriced _ := ⟨(h.unpriced hamount.le).1, hst⟩
  priced hprice := absurd hprice (by dsimp only; omega)
  debited hprice := absurd hprice (by dsimp only; omega)
  kept _ := h.kept (h.unpriced hamount.le).2
  negative hnegative := absurd hnegative (by dsimp only; omega)

/-- The debit of an order without a price enters nothing. -/
theorem Booked.debit_free (h : Booked ledger orderId r) (hamount : r.amountMinor = 0)
    (fresh : String) (telegramId : ℤ) :
    Booked (ledger ++ [debitEntry fresh orderId telegramId r]) orderId r where
  unpriced hfree := by
    rw [repDelta_append, if_pos (debitEntry_isOf fresh telegramId)]
    simpa [debitEntry, hamount] using h.unpriced hfree
  priced hprice := by omega
  debited hprice := by omega
  kept hstatus := by
    rintro ⟨e, he, hkind, href⟩
    rcases List.mem_append.mp he with hold | hnew
    · exact h.kept hstatus ⟨e, hold, hkind, href⟩
    · rw [List.mem_singleton.mp hnew] at hkind
      unfold debitEntry RepOrder.debitKind at hkind
      split at hkind
      · cases hkind
      · cases hkind
  negative := h.negative

/-- The delivery of a paid order. -/
theorem Booked.deliver {st : RepOrderStatus} (h : Booked ledger orderId r)
    (hamount : 0 < r.amountMinor) (hstatus : r.status = .paid) (hst : st.delivered = true) :
    Booked ledger orderId { r with status := st } where
  unpriced hfree := absurd hfree (by dsimp only; omega)
  priced _ := by
    have hdelta := h.priced hamount
    rw [hdelta]
    simp [hstatus, hst]
  debited _ _ := h.debited hamount (by simp [hstatus])
  kept _ := h.kept (by simp [hstatus])
  negative hnegative := absurd hnegative (by dsimp only; omega)

/-- The refund of a paid order. -/
theorem Booked.refund {fresh : String} {telegramId : ℤ} (h : Booked ledger orderId r)
    (hamount : 0 < r.amountMinor) (hstatus : r.status = .paid) :
    Booked (ledger ++ [⟨fresh, r.owner, telegramId, r.amountMinor, .repRefund,
      "refund:" ++ orderId⟩]) orderId { r with status := .failedRefunded } where
  unpriced hfree := absurd hfree (by dsimp only; omega)
  priced _ := by
    have hdelta := h.priced hamount
    rw [repDelta_append, hdelta]
    simp [hstatus, LedgerEntry.isOf, RepOrderStatus.delivered]
  debited _ _ := by
    obtain ⟨e, he, hentry⟩ := h.debited hamount (by simp [hstatus])
    exact ⟨e, List.mem_append_left _ he, hentry⟩
  kept hne := absurd rfl hne
  negative hnegative := absurd hnegative (by dsimp only; omega)

end Entries

/-! ## Custody of the orders -/

/-- A representative has clients. -/
def Shop.hasClients (s : Shop) (rep : String) : Bool :=
  s.managed.rows.any fun r => r.2.owner = rep

/-- What the tables say about a representative: account, credit, profile and
subscription. -/
def Shop.repRows (s : Shop) (rep : String) :
    Option Account × Option OwnerCredit × Option OwnerProfile ×
      List ((String × ℤ) × Subscription) :=
  (s.accounts.get? rep, s.credits.get? rep, s.profiles.get? rep,
    s.subscriptions.rows.filter fun r => r.2.representativeId = rep)

/-- The representatives that have been provisioned stay as they are. -/
def KeepsProvisioned (s t : Shop) : Prop :=
  ∀ rep, s.subscribed rep = true → t.repRows rep = s.repRows rep

/-- Calls of the marketplace. -/
inductive MarketCall where
  | create (owner : String) (telegramId : ℤ) (plan : PlanSnapshot) (priceMinor : ℤ)
      (renewalEnabled isPurchase : Bool)
  | pay (owner orderId : String) (telegramId : ℤ)
  | sweep (force : Bool)
deriving DecidableEq

/-- The call pays for an order. -/
def MarketCall.pays (orderId : String) : MarketCall → Prop
  | pay _ orderId' _ => orderId' = orderId
  | create .. => False
  | sweep _ => False

/-- The scripts of the calls; their results are dropped. -/
def MarketCall.script : MarketCall → ShopScript Unit
  | create owner telegramId plan priceMinor renewalEnabled isPurchase => do
      let _ ← createRepOrder owner telegramId plan priceMinor renewalEnabled isPurchase
  | pay owner orderId telegramId => payRepOrder owner orderId telegramId
  | sweep force => sweepExpired .plain force

/-- No other purchase with the same representative id is being paid for or has been
delivered. -/
def Shop.alone (s : Shop) (orderId : String) (r : RepOrder) : Bool :=
  s.repOrders.rows.all fun row => row.1 = orderId || !row.2.isPurchase ||
    row.2.representativeId ≠ r.representativeId || !row.2.status.active

/-- The condition under which a step of the payment of an order with a price avoids the
defects of {lit}`pay_order`. -/
def partOk (orderId : String) (r : RepOrder) (o : Moment) (s : Shop) : RepPart → Prop
  -- The order has not been debited before.
  | .debit => s.hasEntry r.owner r.debitKind ("representative:" ++ orderId) = false
  | .credit | .account => True
  -- A renewal does not fail after it has written the credit.
  | .profile | .reconcile | .delivery => r.isPurchase = true ∨ o.raised = none
  -- Nothing raises after the delivery.
  | .finish => o.raised = none
  -- The cleanup does not find clients.
  | .cleanup => s.hasClients r.representativeId = false

/-- The condition on a step of a call. -/
def marketOk : MarketCall → ShopAction → Moment → Shop → Prop
  | .pay _ orderId _, .rep part, o, s => ∀ r ∈ s.repOrders.get? orderId,
      (part = .debit → r.isPurchase = true → s.alone orderId r = true) ∧
        (0 < r.amountMinor → partOk orderId r o s part)
  -- The refund commits.
  | .pay _ orderId _, .refund .., o, s => ∀ r ∈ s.repOrders.get? orderId,
      0 < r.amountMinor → o.raised = none ∧ s.ledger.all (·.id ≠ o.fresh) = true
  | _, _, _, _ => True

instance (orderId : String) (r : RepOrder) (o : Moment) (s : Shop) :
    ∀ part, Decidable (partOk orderId r o s part)
  | .debit | .finish | .cleanup => inferInstanceAs (Decidable (_ = _))
  | .credit | .account => .isTrue trivial
  | .profile | .reconcile | .delivery => inferInstanceAs (Decidable (_ ∨ _))

instance : ∀ c name o s, Decidable (marketOk c name o s)
  | .pay _ orderId _, .rep part, o, s => inferInstanceAs (Decidable
      (∀ r ∈ s.repOrders.get? orderId,
        (part = .debit → r.isPurchase = true → s.alone orderId r = true) ∧
          (0 < r.amountMinor → partOk orderId r o s part)))
  | .pay _ orderId _, .refund .., o, s => inferInstanceAs (Decidable
      (∀ r ∈ s.repOrders.get? orderId, 0 < r.amountMinor →
        o.raised = none ∧ s.ledger.all (·.id ≠ o.fresh) = true))
  | .pay .., .plain, _, _ | .pay .., .topupStatus _, _, _ | .pay .., .approve .., _, _
  | .pay .., .reward .., _, _ | .pay .., .event, _, _ | .pay .., .confirm, _, _
  | .pay .., .drop, _, _ | .create .., _, _, _
  | .sweep _, _, _, _ => .isTrue trivial

/-- What a thread holds: nothing, an order that it has debited, such an order after it
has begun to change a representative, or the knowledge that its order is settled. -/
inductive Holding where
  | free
  | takes (orderId : String)
  | changes (orderId : String)
  | settled (orderId : String)

/-- The holdings of a thread that begins to change a representative. -/
def Holding.late : Holding → Holding
  | free => free
  | takes orderId => changes orderId
  | changes orderId => changes orderId
  | settled orderId => settled orderId

/-- The order in the hands of a thread. -/
def Holding.order : Holding → Option String
  | free => none
  | takes orderId => some orderId
  | changes orderId => some orderId
  | settled _ => none

/-- An order that has been paid and is neither delivered nor refunded. -/
def Shop.Owed (orderId : String) (s : Shop) : Prop :=
  ∃ r, s.repOrders.get? orderId = some r ∧ 0 < r.amountMinor ∧ r.status = .paid

/-- An order that is served. -/
def Shop.Done (orderId : String) (s : Shop) : Prop :=
  ∃ r, s.repOrders.get? orderId = some r ∧ r.Served

/-- What a thread knows because of what it holds. -/
def Holding.claim : Holding → Shop → Prop
  | free, _ => True
  | takes orderId, s => s.Owed orderId
  | changes orderId, s => s.Owed orderId
  | settled orderId, s => s.Done orderId

/-- What all steps do: orders keep everything but their status, orders that are served
stay so, and entries stay in the ledger. -/
structure MarketPast (s t : Shop) : Prop where
  orders : ∀ orderId r, s.repOrders.get? orderId = some r →
    ∃ st, t.repOrders.get? orderId = some { r with status := st } ∧
      (r.Served → RepOrder.Served { r with status := st })
  ledger : ∀ e ∈ s.ledger, e ∈ t.ledger

/-- The thread has changed a representative, or its order is settled. -/
def Holding.Tainted (c : MarketCall) (g : Holding) : Prop :=
  ∀ orderId, c.pays orderId → g = .changes orderId ∨ g = .settled orderId

/-- A step of a call, by what its thread holds before and after. -/
structure MarketStep (c : MarketCall) (g g' : Holding) (s t : Shop) : Prop where
  past : MarketPast s t
  others : ∀ orderId, t.repOrders.get? orderId ≠ s.repOrders.get? orderId →
    g.order = some orderId ∨ ¬s.Owed orderId
  own : ∀ orderId, g'.order = some orderId → g.order = some orderId ∨ c.pays orderId
  taken : ∀ orderId, g'.order = some orderId → g.order = some orderId ∨ ¬s.Owed orderId
  settles : ∀ orderId, t.Owed orderId →
    g'.order = some orderId ∨ s.Owed orderId ∧ g.order ≠ some orderId
  quiet : g'.Tainted c ∨ KeepsProvisioned s t
  stays : g.Tainted c → g'.Tainted c

/-- A step of a thread after which the books are in order and its holdings are right. -/
structure Moved (c : MarketCall) (g g' : Holding) (s t : Shop) : Prop where
  books : t.MarketBooks
  claim : g'.claim t
  step : MarketStep c g g' s t

section Past

variable {s t u : Shop}

/-- A shop has its own past. -/
theorem MarketPast.refl (s : Shop) : MarketPast s s :=
  ⟨fun _ r hr => ⟨r.status, hr, id⟩, fun _ he => he⟩

/-- Having a past is transitive. -/
theorem MarketPast.trans (hst : MarketPast s t) (htu : MarketPast t u) : MarketPast s u where
  orders orderId r hr := by
    obtain ⟨st, hst', hdelivered⟩ := hst.orders orderId r hr
    obtain ⟨st', hu, hdelivered'⟩ := htu.orders orderId _ hst'
    exact ⟨st', hu, fun h => hdelivered' (hdelivered h)⟩
  ledger e he := htu.ledger e (hst.ledger e he)

/-- An order that is done stays done. -/
theorem Shop.Done.later {orderId : String} (h : s.Done orderId) (hpast : MarketPast s t) :
    t.Done orderId := by
  obtain ⟨r, hr, hdelivered⟩ := h
  obtain ⟨st, ht, hkept⟩ := hpast.orders orderId r hr
  exact ⟨_, ht, hkept hdelivered⟩

end Past

/-- Threads of the marketplace have the orders that they have debited in custody. -/
def marketCustody : Custody MarketCall Moment ShopAction Shop Holding String where
  inv := Shop.MarketBooks
  claim := Holding.claim
  holds := Holding.order
  own c g := ∀ orderId, g.order = some orderId → c.pays orderId
  debt := fun orderId s => s.Owed orderId
  ok := marketOk
  step := MarketStep
  past := MarketPast
  rely g s t := MarketPast s t ∧
    ∀ orderId, g.order = some orderId → t.repOrders.get? orderId = s.repOrders.get? orderId
  rely_refl _ s := ⟨.refl s, fun _ _ => rfl⟩
  rely_trans _ _ _ _ hst htu :=
    ⟨hst.1.trans htu.1, fun orderId hg => (htu.2 orderId hg).trans (hst.2 orderId hg)⟩
  past_refl := .refl
  past_trans _ _ _ := .trans
  past_of_rely _ _ _ h := h.1
  past_of_step _ _ _ _ _ h := h.past
  claim_later g s t h hclaim := by
    cases g with
    | free => trivial
    | takes orderId =>
        obtain ⟨r, hr, howed⟩ := hclaim
        exact ⟨r, (h.2 orderId rfl).trans hr, howed⟩
    | changes orderId =>
        obtain ⟨r, hr, howed⟩ := hclaim
        exact ⟨r, (h.2 orderId rfl).trans hr, howed⟩
    | settled orderId => exact Shop.Done.later hclaim h.1
  debt_of_claim g orderId s hg hclaim := by
    cases g with
    | free => cases hg
    | takes orderId' =>
        cases hg
        exact hclaim
    | changes orderId' =>
        cases hg
        exact hclaim
    | settled orderId' => cases hg
  others c g g' h s t hstep hclaim hapart := by
    refine ⟨hstep.past, fun orderId hh => ?_⟩
    by_contra hne
    have howed : s.Owed orderId := by
      cases h with
      | free => cases hh
      | takes orderId' =>
          cases hh
          exact hclaim
      | changes orderId' =>
          cases hh
          exact hclaim
      | settled orderId' => cases hh
    rcases hstep.others orderId hne with hg | hnot
    · exact hapart orderId hg hh
    · exact hnot howed
  own_step _ _ _ _ _ hstep hown orderId hg' := (hstep.own orderId hg').elim (hown orderId) id
  taken _ _ _ _ _ orderId hstep := hstep.taken orderId
  settled _ _ _ _ _ orderId hstep := hstep.settles orderId

/-! ## What the steps do to the orders -/

/-- The row of an order, whatever its status. -/
def Shop.Ordered (s : Shop) (orderId : String) (order : RepOrder) : Prop :=
  ∃ st, s.repOrders.get? orderId = some { order with status := st }

/-- An order that was made stays made. -/
theorem Shop.Ordered.later {s t : Shop} {orderId : String} {order : RepOrder}
    (h : s.Ordered orderId order) (hpast : MarketPast s t) : t.Ordered orderId order := by
  obtain ⟨st, hst⟩ := h
  obtain ⟨st', hst', -⟩ := hpast.orders orderId _ hst
  exact ⟨st', hst'⟩

section Changes

variable {c : MarketCall} {g g' : Holding} {s t : Shop} {orderId : String} {r : RepOrder}
  {st : RepOrderStatus}

/-- Where the rows stay, nothing is touched. -/
theorem untouched_of_rows (haccounts : t.accounts = s.accounts) (hcredits : t.credits = s.credits)
    (hprofiles : t.profiles = s.profiles) (hsubs : t.subscriptions = s.subscriptions) :
    KeepsProvisioned s t := by
  intro rep _
  simp only [Shop.repRows, haccounts, hcredits, hprofiles, hsubs]

/-- A step that leaves the orders alone. -/
theorem MarketStep.frame (horders : t.repOrders = s.repOrders) (hledger : t.ledger = s.ledger)
    (hsame : g'.order = g.order) (hquiet : g'.Tainted c ∨ KeepsProvisioned s t)
    (hstays : g.Tainted c → g'.Tainted c) : MarketStep c g g' s t where
  past :=
    { orders := fun _ r hr => ⟨r.status, horders ▸ hr, id⟩
      ledger := fun _ he => hledger ▸ he }
  others _ hne := (hne (by rw [horders])).elim
  own _ hg' := .inl (hsame ▸ hg')
  taken _ hg' := .inl (hsame ▸ hg')
  settles orderId howed := by
    have howed' : s.Owed orderId := by
      obtain ⟨r, hr, h⟩ := howed
      exact ⟨r, horders ▸ hr, h⟩
    by_cases hg : g.order = some orderId
    · exact .inl (hsame.trans hg)
    · exact .inr ⟨howed', hg⟩
  quiet := hquiet
  stays := hstays

/-- The books hold as long as orders, ledger and subscriptions stay. -/
theorem Shop.MarketBooks.frame (h : s.MarketBooks) (horders : t.repOrders = s.repOrders)
    (hledger : t.ledger = s.ledger)
    (hsubs : ∀ rep, t.subscribed rep = true → s.subscribed rep = true) : t.MarketBooks where
  booked orderId r hr := by
    rw [hledger]
    exact h.booked orderId r (horders ▸ hr)
  known e he orderId := by
    rw [horders]
    exact h.known e (hledger ▸ he) orderId
  sold :=
    { single := by
        rw [horders]
        exact h.sold.single
      bought := fun rep hrep => by
        rw [horders]
        exact h.sold.bought rep (hsubs rep hrep) }

/-- A claim holds as long as orders and ledger stay. -/
theorem claim_frame (h : g.claim s) (horders : t.repOrders = s.repOrders)
    (hledger : t.ledger = s.ledger) : g.claim t :=
  marketCustody.claim_later g s t
    ⟨⟨fun _ r hr => ⟨r.status, horders ▸ hr, id⟩, fun _ he => hledger ▸ he⟩,
      fun _ _ => by rw [horders]⟩ h

/-- A step that writes the status of one order. -/
theorem MarketStep.write (hrow : s.repOrders.get? orderId = some r)
    (horders : t.repOrders = s.repOrders.update orderId fun r => { r with status := st })
    (hledger : ∀ e ∈ s.ledger, e ∈ t.ledger)
    (hserved : r.Served → RepOrder.Served { r with status := st })
    (hmine : g.order = some orderId ∨ ¬s.Owed orderId)
    (honly : ∀ orderId', g.order = some orderId' → orderId' = orderId)
    (hafter : ∀ orderId', g'.order = some orderId' → orderId' = orderId ∧ c.pays orderId)
    (howes : 0 < r.amountMinor → st = .paid → g'.order = some orderId)
    (hquiet : g'.Tainted c ∨ KeepsProvisioned s t) (hstays : g.Tainted c → g'.Tainted c) :
    MarketStep c g g' s t where
  past :=
    { orders := by
        intro orderId' r' hr'
        rw [horders, Table.get?_update]
        by_cases hid : orderId' = orderId
        · subst hid
          rw [hrow] at hr'
          cases hr'
          exact ⟨st, by simp [hrow], hserved⟩
        · exact ⟨r'.status, by rw [if_neg hid, hr'], id⟩
      ledger := hledger }
  others orderId' hne := by
    by_cases hid : orderId' = orderId
    · exact hid ▸ hmine
    · rw [horders, Table.get?_update, if_neg hid] at hne
      exact (hne rfl).elim
  own orderId' hg' := by
    rw [(hafter orderId' hg').1]
    exact .inr (hafter orderId' hg').2
  taken orderId' hg' := by
    rw [(hafter orderId' hg').1]
    exact hmine
  settles orderId' howed := by
    obtain ⟨r', hr', hamount, hpaid⟩ := howed
    rw [horders, Table.get?_update] at hr'
    by_cases hid : orderId' = orderId
    · subst hid
      rw [if_pos rfl, hrow] at hr'
      cases hr'
      exact .inl (howes hamount hpaid)
    · rw [if_neg hid] at hr'
      exact .inr ⟨⟨r', hr', hamount, hpaid⟩, fun hg => hid (honly orderId' hg)⟩
  quiet := hquiet
  stays := hstays

/-- A purchase that becomes active is the only one for its representative, and only
what is bought is provisioned. -/
theorem Shop.Sold.write (h : s.Sold) (hrow : s.repOrders.get? orderId = some r)
    (horders : t.repOrders = s.repOrders.update orderId fun r => { r with status := st })
    (hserved : r.Served → RepOrder.Served { r with status := st })
    (halone : r.isPurchase = true → st.active = true →
      r.status.active = true ∨ s.alone orderId r = true)
    (hsubs : ∀ rep, t.subscribed rep = true → s.subscribed rep = true ∨
      r.isPurchase = true ∧ r.representativeId = rep ∧ RepOrder.Served { r with status := st }) :
    t.Sold := by
  have hnow : t.repOrders.get? orderId = some { r with status := st } := by
    simp [horders, hrow]
  have hother : ∀ orderId', orderId' ≠ orderId →
      t.repOrders.get? orderId' = s.repOrders.get? orderId' := by
    intro orderId' hne
    rw [horders, Table.get?_update, if_neg hne]
  -- An active purchase among the other orders has another representative.
  have hapart : ∀ orderId' r', s.repOrders.get? orderId' = some r' → r.isPurchase = true →
      r'.isPurchase = true → r.representativeId = r'.representativeId → st.active = true →
      r'.status.active = true → orderId = orderId' := by
    intro orderId' r' hr' hpurchase hpurchase' hrep hactive hactive'
    rcases halone hpurchase hactive with hwas | halone
    · exact h.single _ _ r r' hrow hr' hpurchase hpurchase' hrep hwas hactive'
    · have hrow' := List.all_eq_true.mp halone _ (Table.get?_eq_some_iff.mp hr')
      simp only [hpurchase', hrep, hactive'] at hrow'
      simpa [eq_comm] using hrow'
  constructor
  · intro x y r₁ r₂ h₁ h₂ hpurchase₁ hpurchase₂ hrep hactive₁ hactive₂
    by_cases hx : x = orderId
    · subst hx
      by_cases hy : y = x
      · exact hy.symm
      · rw [hnow] at h₁
        cases h₁
        rw [hother y hy] at h₂
        exact hapart y r₂ h₂ hpurchase₁ hpurchase₂ hrep hactive₁ hactive₂
    · rw [hother x hx] at h₁
      by_cases hy : y = orderId
      · subst hy
        rw [hnow] at h₂
        cases h₂
        exact (hapart x r₁ h₁ hpurchase₂ hpurchase₁ hrep.symm hactive₂ hactive₁).symm
      · rw [hother y hy] at h₂
        exact h.single x y r₁ r₂ h₁ h₂ hpurchase₁ hpurchase₂ hrep hactive₁ hactive₂
  · intro rep hrep
    rcases hsubs rep hrep with hold | ⟨hpurchase, hid, hnew⟩
    · obtain ⟨orderId', r', hr', hpurchase, hid, hwas⟩ := h.bought rep hold
      by_cases hsame : orderId' = orderId
      · subst hsame
        rw [hrow] at hr'
        cases hr'
        exact ⟨orderId', _, hnow, hpurchase, hid, hserved hwas⟩
      · exact ⟨orderId', r', (hother _ hsame).trans hr', hpurchase, hid, hwas⟩
    · exact ⟨orderId, _, hnow, hpurchase, hid, hnew⟩

/-- A write to one order, with entries that reference it. -/
theorem Shop.MarketBooks.write {entries : List LedgerEntry} (h : s.MarketBooks)
    (hrow : s.repOrders.get? orderId = some r)
    (horders : t.repOrders = s.repOrders.update orderId fun r => { r with status := st })
    (hledger : t.ledger = s.ledger ++ entries) (hentries : ∀ e ∈ entries, e.isOf orderId = true)
    (hbooked : Booked t.ledger orderId { r with status := st }) (hsold : t.Sold) :
    t.MarketBooks where
  booked orderId' r' hr' := by
    rw [horders, Table.get?_update] at hr'
    by_cases hid : orderId' = orderId
    · subst hid
      rw [if_pos rfl, hrow] at hr'
      cases hr'
      exact hbooked
    · rw [if_neg hid] at hr'
      rw [hledger]
      apply (h.booked orderId' r' hr').append_other
      intro e he
      by_contra hof
      exact hid (isOf_unique (Bool.not_eq_false _ ▸ hof) (hentries e he))
  known e he orderId' hof := by
    rw [horders, Table.get?_update]
    rw [hledger] at he
    rcases List.mem_append.mp he with hold | hnew
    · have hsome := h.known e hold orderId' hof
      split
      · simpa using hsome
      · exact hsome
    · rw [isOf_unique hof (hentries e hnew), if_pos rfl, hrow]
      simp
  sold := hsold

/-- A new order. -/
theorem MarketStep.insert (hnew : s.repOrders.get? orderId = none)
    (horders : t.repOrders = s.repOrders.insert orderId r) (hstatus : r.status = .pending)
    (hledger : t.ledger = s.ledger) (htainted : g.Tainted c) : MarketStep c g g s t where
  past :=
    { orders := fun orderId' r' hr' => ⟨r'.status, by
        rw [horders]
        exact Table.get?_insert_of_some hr' _ _, id⟩
      ledger := fun _ he => hledger ▸ he }
  others orderId' hne := by
    by_cases hid : orderId' = orderId
    · refine .inr ?_
      rintro ⟨r', hr', -⟩
      rw [hid, hnew] at hr'
      cases hr'
    · rw [horders, Table.get?_insert hnew, if_neg hid] at hne
      exact (hne rfl).elim
  own _ hg := .inl hg
  taken _ hg := .inl hg
  settles orderId' howed := by
    obtain ⟨r', hr', hamount, hpaid⟩ := howed
    rw [horders, Table.get?_insert hnew] at hr'
    by_cases hid : orderId' = orderId
    · rw [if_pos hid] at hr'
      cases hr'
      rw [hstatus] at hpaid
      cases hpaid
    · rw [if_neg hid] at hr'
      by_cases hg : g.order = some orderId'
      · exact .inl hg
      · exact .inr ⟨⟨r', hr', hamount, hpaid⟩, hg⟩
  quiet := .inl htainted
  stays := id

/-- A new pending order keeps the books. -/
theorem Shop.MarketBooks.insert (h : s.MarketBooks) (hnew : s.repOrders.get? orderId = none)
    (horders : t.repOrders = s.repOrders.insert orderId r) (hstatus : r.status = .pending)
    (hledger : t.ledger = s.ledger)
    (hsubs : t.subscriptions = s.subscriptions) : t.MarketBooks where
  booked orderId' r' hr' := by
    rw [horders, Table.get?_insert hnew] at hr'
    rw [hledger]
    by_cases hid : orderId' = orderId
    · rw [if_pos hid] at hr'
      cases hr'
      apply booked_new hstatus
      intro e he
      by_contra hof
      exact h.known e he orderId' (Bool.not_eq_false _ ▸ hof) (hid ▸ hnew)
    · rw [if_neg hid] at hr'
      exact h.booked orderId' r' hr'
  known e he orderId' hof := by
    rw [horders, Table.get?_insert hnew]
    split
    · simp
    · exact h.known e (hledger ▸ he) orderId' hof
  sold :=
    { single := by
        -- A new order is not active.
        have hold : ∀ orderId' r', t.repOrders.get? orderId' = some r' →
            r'.status.active = true → s.repOrders.get? orderId' = some r' := by
          intro orderId' r' hr' hactive
          rw [horders, Table.get?_insert hnew] at hr'
          by_cases hid : orderId' = orderId
          · rw [if_pos hid] at hr'
            cases hr'
            rw [hstatus] at hactive
            cases hactive
          · rwa [if_neg hid] at hr'
        intro x y r₁ r₂ h₁ h₂ hpurchase₁ hpurchase₂ hrep hactive₁ hactive₂
        exact h.sold.single x y r₁ r₂ (hold x r₁ h₁ hactive₁) (hold y r₂ h₂ hactive₂)
          hpurchase₁ hpurchase₂ hrep hactive₁ hactive₂
      bought := by
        intro rep hrep
        have hrep' : s.subscribed rep = true := by
          simpa only [Shop.subscribed, hsubs] using hrep
        obtain ⟨orderId', r', hr', hbought⟩ := h.sold.bought rep hrep'
        refine ⟨orderId', r', ?_, hbought⟩
        rw [horders]
        exact Table.get?_insert_of_some hr' _ _ }

end Changes

/-! ## Rules for transactions -/

section Rules

variable {α : Type} {c : MarketCall} {g : Holding} {s : Shop}
  {q : Holding → α → Shop → Prop} {r : Holding → Failure → Shop → Prop}

/-- A transaction keeps the custody if its body does; if it raises, nothing has happened. -/
theorem keeps_commit {name : ShopAction} {body : Moment → ShopTx α}
    (h : ∀ o t, t.MarketBooks → g.claim t → marketCustody.rely g s t → marketOk c name o t →
      (body o).wp
        (fun a u => (o.raised = none → ∃ g', Moved c g g' t u ∧
          ∀ v, v.MarketBooks → g'.claim v → marketCustody.rely g' u v → q g' a v) ∧
          ∀ e, o.raised = some e → r g e t)
        (fun e _ => r g e t) t)
    (hr : ∀ e t u, r g e t → MarketPast t u → r g e u) :
    (Script.perform name (commit body)).Keeps marketCustody c q r g s := by
  apply Script.Keeps.perform
  intro t ht hg hrel o ho
  have hraise : ∀ e, r g e t → ∃ g', marketCustody.inv t ∧ marketCustody.claim g' t ∧
      marketCustody.step c g g' t t ∧ ∀ v, marketCustody.inv v → marketCustody.claim g' v →
        marketCustody.rely g' t v → r g' e v :=
    fun e he => ⟨g, ht, hg, .frame rfl rfl rfl (.inr fun _ _ => rfl) id,
      fun v _ _ hlater => hr e t v he hlater.1⟩
  rw [wp_commit]
  apply Tx.wp_mono (h o t ht hg hrel ho)
  · refine fun a u hu => ⟨fun hnone => ?_, fun e he => hraise e (hu.2 e he)⟩
    obtain ⟨g', hmoved, hq⟩ := hu.1 hnone
    exact ⟨g', hmoved.books, hmoved.claim, hmoved.step, hq⟩
  · exact fun e u hu => hraise e hu

/-- What a thread has read about orders. -/
def Knows (known : List (String × RepOrder)) (s : Shop) : Prop :=
  ∀ k ∈ known, s.Ordered k.1 k.2

/-- The thread holds at the end what it held, and raises only under a condition. -/
def StaysIf (raises : Prop) (c : MarketCall) (g : Holding) (known : List (String × RepOrder))
    (p : ShopScript α) : Prop :=
  ∀ s, s.MarketBooks → g.claim s → Knows known s →
    p.Keeps marketCustody c (fun g' _ _ => g' = g) (fun g' _ _ => g' = g ∧ raises) g s

/-- The thread holds at the end what it held. -/
abbrev Stays (c : MarketCall) (g : Holding) (known : List (String × RepOrder))
    (p : ShopScript α) : Prop :=
  StaysIf True c g known p

/-- Steps with a name fail only under a condition. -/
def FailsIf (raises : Prop) (c : MarketCall) (known : List (String × RepOrder))
    (name : ShopAction) : Prop :=
  ∀ o t e, Knows known t → marketOk c name o t → o.raised = some e → raises

variable {known : List (String × RepOrder)} {raises : Prop}

/-- What is known stays true. -/
theorem Knows.later {t : Shop} (h : Knows known s) (hpast : MarketPast s t) : Knows known t :=
  fun k hk => (h k hk).later hpast

/-- A script that does not change the holdings, and one that does. -/
theorem StaysIf.andThen {β : Type} {p : ShopScript α} {f : α → ShopScript β}
    {q : Holding → β → Shop → Prop} (h : StaysIf raises c g known p) (hs : s.MarketBooks)
    (hg : g.claim s) (hknown : Knows known s) (hr : raises → ∀ e t, r g e t)
    (hf : ∀ a t, t.MarketBooks → g.claim t → Knows known t →
      (f a).Keeps marketCustody c q r g t) :
    (p >>= f).Keeps marketCustody c q r g s := by
  have hp : p.Keeps marketCustody c (fun g' _ _ => g' = g) r g s := by
    apply (h s hs hg hknown).mono
    · exact fun _ _ _ h => h
    · rintro g' e t ⟨rfl, hraises⟩
      exact hr hraises e t
  apply hp.bind hs hg
  rintro g' a t ht hgt hpast rfl
  exact hf a t ht hgt (hknown.later hpast)

/-- The rule of sequence. -/
theorem StaysIf.bind {β : Type} {p : ShopScript α} {f : α → ShopScript β}
    (h : StaysIf raises c g known p) (hf : ∀ a, StaysIf raises c g known (f a)) :
    StaysIf raises c g known (p >>= f) :=
  fun _ hs hg hknown => h.andThen hs hg hknown (fun hraises _ _ => ⟨rfl, hraises⟩) fun a t => hf a t

/-- The rule of a value. -/
theorem StaysIf.pure {a : α} : StaysIf raises c g known (pure a : ShopScript α) :=
  fun _ _ _ _ => Script.Keeps.pure fun _ _ _ _ => rfl

/-- A result stays aside. -/
theorem stays_ofExcept {x : Except Failure α} :
    Stays c g known (Script.ofExcept x : ShopScript α) :=
  fun _ _ _ _ => .ofExcept (fun _ _ _ _ _ _ => rfl) fun _ _ _ _ _ _ => ⟨rfl, trivial⟩

/-- Every step fails under the condition that always holds. -/
theorem failsIf_true {name : ShopAction} : FailsIf True c known name :=
  fun _ _ _ _ _ _ => trivial

/-- A transaction that leaves orders and ledger alone, and sells nothing. -/
theorem staysIf_commit {name : ShopAction} {body : Moment → ShopTx α}
    (hname : FailsIf raises c known name)
    (h : ∀ o t, t.MarketBooks → g.claim t → Knows known t → marketOk c name o t →
      (body o).wp (fun _ u => u.repOrders = t.repOrders ∧ u.ledger = t.ledger ∧
        (∀ rep, u.subscribed rep = true → t.subscribed rep = true) ∧
        (g.Tainted c ∨ KeepsProvisioned t u)) (fun _ _ => raises) t) :
    StaysIf raises c g known (Script.perform name (commit body)) := by
  intro s _ _ hknown
  apply keeps_commit
  · intro o t ht hgt hrel ho
    have hnow := hknown.later hrel.1
    apply Tx.wp_mono (h o t ht hgt hnow ho)
    · rintro a u ⟨horders, hledger, hsubs, hquiet⟩
      have hmoved : Moved c g g t u :=
        ⟨ht.frame horders hledger hsubs, claim_frame hgt horders hledger,
          .frame horders hledger rfl hquiet id⟩
      exact ⟨fun _ => ⟨g, hmoved, fun _ _ _ _ => rfl⟩, fun e he => ⟨rfl, hname o t e hnow ho he⟩⟩
    · exact fun _ _ hraises => ⟨rfl, hraises⟩
  · exact fun _ _ _ h _ => h

/-- Reading changes nothing; what is looked up is there, or the thread raises. -/
theorem staysIf_lookAs {name : ShopAction} {f : Moment → Shop → Except Failure α}
    (hname : FailsIf raises c known name)
    (hfound : ∀ o t e, Knows known t → f o t = .error e → raises) :
    StaysIf raises c g known (lookAs name f) := by
  apply staysIf_commit hname
  intro o t _ _ hknown _
  simp only [Tx.wp_bind, Tx.wp_read, Tx.wp_ofExcept]
  exact ⟨fun _ _ => ⟨trivial, trivial, fun _ h => h, .inr fun _ _ => rfl⟩,
    fun e he => hfound o t e hknown he⟩

/-- A read stays aside. -/
theorem stays_look {f : Moment → Shop → Except Failure α} : Stays c g known (look f) :=
  staysIf_lookAs failsIf_true fun _ _ _ _ _ => trivial

/-- An outside answer stays aside if it does not raise. -/
theorem staysIf_outsideAs {name : ShopAction} (hname : FailsIf raises c known name) :
    StaysIf raises c g known (outsideAs name) :=
  staysIf_commit hname fun _ _ _ _ _ _ => ⟨rfl, rfl, fun _ h => h, .inr fun _ _ => rfl⟩

/-- An outside answer stays aside. -/
theorem stays_outside : Stays c g known outside :=
  staysIf_outsideAs failsIf_true

/-- A check stays aside. -/
theorem stays_insist {p : Prop} [Decidable p] {message : String} :
    Stays c g known (insist p message) :=
  stays_ofExcept

/-- The order that is read stays what it is, but for its status. -/
theorem keeps_readRepOrder {name : ShopAction} {owner orderId : String} :
    (readRepOrder name orderId owner).Keeps marketCustody c
      (fun g' order t => g' = g ∧ order.owner = owner ∧ t.Ordered orderId order)
      (fun g' _ _ => g' = g) g s := by
  apply keeps_commit
  · intro o t ht hg _ _
    simp only [Tx.wp_bind, Tx.wp_read, Tx.wp_ofExcept]
    refine ⟨fun order horder => ⟨fun _ => ⟨g, ⟨ht, hg, ?_⟩, ?_⟩, fun _ _ => trivial⟩,
      fun _ _ => trivial⟩
    · exact .frame rfl rfl rfl (.inr fun _ _ => rfl) id
    · intro v _ _ hlater
      obtain ⟨hrow, howner⟩ := Option.filter_eq_some_iff.mp (found_eq_ok horder)
      have hnow : t.Ordered orderId order := ⟨order.status, hrow⟩
      exact ⟨rfl, by simpa using howner, hnow.later hlater.1⟩
  · exact fun _ _ _ h _ => h

end Rules

/-! ## Scripts that settle nothing -/

section Passive

variable {c : MarketCall} {g : Holding} {owner orderId : String}
  {known : List (String × RepOrder)}

/-- The result of an order that is known is read without an exception. -/
theorem staysIf_repResult {raises : Prop} {name : ShopAction} {order : RepOrder}
    (hname : FailsIf raises c [(orderId, order)] name) (howner : order.owner = owner) :
    StaysIf raises c g [(orderId, order)] (repResult name orderId owner) := by
  apply StaysIf.bind
  · apply staysIf_lookAs hname
    intro o t e hknown hmissing
    obtain ⟨st, hrow⟩ := hknown _ (List.mem_singleton_self _)
    simp [hrow, howner, found, Option.filter] at hmissing
  · exact fun _ => .bind (staysIf_outsideAs hname) fun _ => .pure

/-- A change of subscriptions that leaves them with their representatives. -/
theorem subscribed_of_rows {s t : Shop} {rep : String}
    (hrows : ∀ row ∈ t.subscriptions.rows, ∃ old ∈ s.subscriptions.rows,
      old.2.representativeId = row.2.representativeId) (hrep : t.subscribed rep = true) :
    s.subscribed rep = true := by
  obtain ⟨row, hrow, hid⟩ := List.any_eq_true.mp hrep
  obtain ⟨old, hold, hsame⟩ := hrows row hrow
  exact List.any_eq_true.mpr ⟨old, hold, by simpa only [hsame] using hid⟩

/-- A new subscription provisions one representative. -/
theorem subscribed_insert {s t : Shop} {key : String × ℤ} {sub : Subscription} {rep : String}
    (hsubs : t.subscriptions = s.subscriptions.insert key sub) (hrep : t.subscribed rep = true) :
    s.subscribed rep = true ∨ sub.representativeId = rep := by
  rw [Shop.subscribed, hsubs, Table.insert] at hrep
  split at hrep
  · exact .inl hrep
  · simpa [Shop.subscribed, List.any_append] using hrep

/-- A sweep is made by a thread that may change representatives. -/
theorem staysIf_suspendAll {raises : Prop} {name : ShopAction}
    (hname : FailsIf raises c known name) (hg : g.Tainted c) {now : ℕ}
    {rows : List ((String × ℤ) × Subscription)} :
    StaysIf raises c g known (suspendAll name now rows) := by
  induction rows with
  | nil => exact .pure
  | cons row rows ih =>
      apply StaysIf.bind
      · apply staysIf_commit hname
        intro o t _ _ _ _
        simp only [suspendTx, Tx.wp_bind, Tx.wp_read, Tx.wp_write]
        refine ⟨trivial, trivial, fun rep => subscribed_of_rows fun row' hrow' => ?_, .inl hg⟩
        obtain ⟨old, hold, rfl⟩ := List.mem_map.mp hrow'
        refine ⟨old, hold, ?_⟩
        dsimp only
        split
        · split
          · rfl
          · rfl
        · rfl
      · exact fun _ => ih

/-- Sweeping expired subscriptions stays aside if it does not raise. -/
theorem staysIf_sweepExpired {raises : Prop} {name : ShopAction}
    (hname : FailsIf raises c known name) (hg : g.Tainted c) {force : Bool} :
    StaysIf raises c g known (sweepExpired name force) := by
  apply StaysIf.bind (staysIf_outsideAs hname)
  intro recent
  split
  · exact .pure
  · have hlook : ∀ {α : Type} {f : Moment → Shop → α},
        StaysIf raises c g known (lookAs name fun o s => .ok (f o s)) :=
      staysIf_lookAs hname fun _ _ _ _ h => by cases h
    exact .bind hlook fun _ => .bind hlook fun _ => staysIf_suspendAll hname hg

/-- The new order is nobody's. -/
theorem stays_insertRepOrder (hc : Holding.free.Tainted c) {order : RepOrder}
    (hstatus : order.status = .pending) : Stays c .free known (step (insertRepOrder order)) := by
  intro s _ _ _
  apply keeps_commit
  · intro o t ht _ _ _
    simp only [insertRepOrder, Tx.wp_bind, Tx.wp_read, Tx.wp_require, Tx.wp_write, Tx.wp_pure]
    refine ⟨fun hnew => ⟨fun _ => ⟨.free, ⟨?_, trivial, ?_⟩, fun _ _ _ _ => rfl⟩, ?_⟩, ?_⟩
    · exact ht.insert hnew rfl hstatus rfl rfl
    · exact .insert hnew rfl hstatus rfl hc
    · exact fun _ _ => ⟨trivial, trivial⟩
    · exact fun _ => ⟨trivial, trivial⟩
  · exact fun _ _ _ h _ => h

/-- Creating an order stays aside. -/
theorem stays_createRepOrder (hc : Holding.free.Tainted c) {telegramId priceMinor : ℤ}
    {plan : PlanSnapshot} {renewalEnabled isPurchase : Bool} :
    Stays c .free known
      (createRepOrder owner telegramId plan priceMinor renewalEnabled isPurchase) := by
  apply StaysIf.bind stays_look
  intro _
  apply StaysIf.bind stays_insist
  intro _
  apply StaysIf.bind stays_look
  intro _
  apply StaysIf.bind stays_insist
  intro _
  apply StaysIf.bind stays_insist
  intro _
  apply StaysIf.bind stays_insist
  intro _
  apply StaysIf.bind stays_look
  intro _
  apply StaysIf.bind stays_ofExcept
  exact fun _ => stays_insertRepOrder hc rfl

end Passive

/-! ## The payment of an order -/

section Pay

variable {owner orderId : String} {telegramId : ℤ} {order : RepOrder} {g : Holding} {s t : Shop}

/-- A payment knows which order it is about. -/
theorem tainted_changes : (Holding.changes orderId).Tainted (.pay owner orderId telegramId) := by
  rintro _ rfl
  exact .inl rfl

/-- A settled order has passed the point of no return. -/
theorem tainted_settled : (Holding.settled orderId).Tainted (.pay owner orderId telegramId) := by
  rintro _ rfl
  exact .inr rfl

/-- A thread has debited an order: it holds the order, unless the order is free. -/
def Paying (orderId : String) (order : RepOrder) (g : Holding) : Prop :=
  g = .takes orderId ∨ g = .settled orderId ∧ order.amountMinor = 0

/-- The condition on a part of the payment, for the order that has been read. -/
theorem marketOk_of_ordered {o : Moment} {part : RepPart}
    (hok : marketOk (.pay owner orderId telegramId) (.rep part) o t)
    (hord : t.Ordered orderId order) :
    (part = .debit → order.isPurchase = true → t.alone orderId order = true) ∧
      (0 < order.amountMinor → partOk orderId order o t part) := by
  obtain ⟨st, hrow⟩ := hord
  have hpart := hok _ hrow
  cases part with
  | debit | credit | profile | reconcile | account | delivery | finish | cleanup => exact hpart

/-- While a purchase with a price is being paid for, its representative has not been
provisioned: whoever has been provisioned was bought with another order. -/
theorem Shop.Sold.unsold (h : s.Sold) (howed : s.Owed orderId) (hord : s.Ordered orderId order)
    (hpurchase : order.isPurchase = true) : s.subscribed order.representativeId = false := by
  by_contra hsub
  obtain ⟨orderId', r', hr', hpurchase', hrep, hserved⟩ :=
    h.bought _ (Bool.not_eq_false _ ▸ hsub)
  obtain ⟨r, hr, hprice, hpaid⟩ := howed
  obtain ⟨st, hrow⟩ := hord
  rw [hr] at hrow
  cases hrow
  obtain rfl : st = .paid := hpaid
  have hsame : orderId = orderId' := h.single _ _ _ r' hr hr' hpurchase hpurchase' hrep.symm rfl
    hserved.1
  subst hsame
  rw [hr] at hr'
  cases hr'
  cases hserved.2 hprice

/-- A thread that pays for a purchase is settled, or its representative is new. -/
theorem Paying.unsold (hg : Paying orderId order g) (ht : t.MarketBooks) (hclaim : g.claim t)
    (hknown : Knows [(orderId, order)] t) (hpurchase : order.isPurchase = true) :
    g.Tainted (.pay owner orderId telegramId) ∨ t.subscribed order.representativeId = false := by
  rcases hg with rfl | ⟨rfl, -⟩
  · exact .inr (ht.sold.unsold hclaim (hknown _ (List.mem_singleton_self _)) hpurchase)
  · exact .inl tainted_settled

/-! ### Changes of a representative that has not been provisioned -/

/-- Writing about one representative leaves the others alone. -/
theorem untouched_except {rep : String} (hnot : s.subscribed rep = false)
    (haccounts : ∀ rep', rep' ≠ rep → t.accounts.get? rep' = s.accounts.get? rep')
    (hcredits : ∀ rep', rep' ≠ rep → t.credits.get? rep' = s.credits.get? rep')
    (hprofiles : ∀ rep', rep' ≠ rep → t.profiles.get? rep' = s.profiles.get? rep')
    (hsubs : t.subscriptions = s.subscriptions) : KeepsProvisioned s t := by
  intro rep' hsub
  have hne : rep' ≠ rep := by
    rintro rfl
    rw [hnot] at hsub
    cases hsub
  simp only [Shop.repRows, haccounts rep' hne, hcredits rep' hne, hprofiles rep' hne, hsubs]

/-- The policy of a purchase. -/
theorem stays_applyPolicy (hg : Paying orderId order g) (hpurchase : order.isPurchase = true) :
    Stays (.pay owner orderId telegramId) g [(orderId, order)]
      (applyPolicy order.owner order.representativeId order.snapshot) := by
  apply StaysIf.bind stays_look
  intro _
  apply StaysIf.bind stays_ofExcept
  intro _
  apply StaysIf.bind stays_outside
  intro _
  apply StaysIf.bind
  · apply staysIf_commit failsIf_true
    intro o t ht hclaim hknown _
    rw [Tx.wp_write]
    refine ⟨rfl, rfl, fun _ h => h, (hg.unsold ht hclaim hknown hpurchase).imp_right fun hnew => ?_⟩
    apply untouched_except hnew
    · exact fun _ _ => rfl
    · intro rep' hne
      rw [Table.get?_upsert, if_neg hne]
    · exact fun _ _ => rfl
    · rfl
  · intro _
    apply StaysIf.bind
    · apply staysIf_commit failsIf_true
      intro o t ht hclaim hknown _
      rw [Tx.wp_write]
      refine ⟨rfl, rfl, fun _ h => h,
        (hg.unsold ht hclaim hknown hpurchase).imp_right fun hnew => ?_⟩
      apply untouched_except hnew
      · exact fun _ _ => rfl
      · exact fun _ _ => rfl
      · intro rep' hne
        rw [Table.get?_upsert, if_neg hne]
      · rfl
    · exact fun _ => staysIf_commit failsIf_true fun _ _ _ _ _ _ =>
        ⟨rfl, rfl, fun _ h => h, .inr fun _ _ => rfl⟩

/-- The account of a purchase. -/
theorem stays_createAccount (hg : Paying orderId order g) (hpurchase : order.isPurchase = true) :
    Stays (.pay owner orderId telegramId) g [(orderId, order)]
      (repStep .account (createAccount order.representativeId)) := by
  apply staysIf_commit failsIf_true
  intro o t ht hclaim hknown _
  have hunsold : g.Tainted (.pay owner orderId telegramId) ∨
      t.subscribed order.representativeId = false := hg.unsold ht hclaim hknown hpurchase
  simp only [createAccount, demandPolicy, Tx.wp_bind, Tx.wp_read, Tx.wp_require, Tx.wp_write,
    id_eq]
  refine ⟨fun _ => ⟨fun hnone => ⟨trivial, trivial, fun _ h => h,
    hunsold.imp_right fun hnew => ?_⟩, fun _ => trivial⟩, fun _ => trivial⟩
  apply untouched_except hnew
  · intro rep' hne
    rw [Table.get?_insert hnone, if_neg hne]
  · exact fun _ _ => rfl
  · exact fun _ _ => rfl
  · rfl

/-- The cleanup after a purchase that has failed: without clients it only removes a
representative that has not been provisioned. -/
theorem stays_cleanupRep :
    ∀ s : Shop, s.MarketBooks → s.Ordered orderId order → 0 < order.amountMinor →
      (cleanupRep order).Keeps marketCustody (.pay owner orderId telegramId)
        (fun g' _ _ => g' = .free) (fun g' _ _ => g' = .free) .free s := by
  intro s hs hord hprice
  unfold cleanupRep
  split
  · have hstays : Stays (.pay owner orderId telegramId) .free [(orderId, order)]
        (repStep .cleanup (cleanupTx order.representativeId)) := by
      apply staysIf_commit failsIf_true
      intro o t _ _ hknown hok
      have hclients : t.hasClients order.representativeId = false :=
        (marketOk_of_ordered hok (hknown _ (List.mem_singleton_self _))).2 hprice
      simp only [cleanupTx, Tx.wp_bind, Tx.wp_read, id_eq]
      split
      · rename_i hsome
        exact absurd (hsome.symm.trans hclients) (by decide)
      · split
        · exact ⟨rfl, rfl, fun _ h => h, .inr fun _ _ => rfl⟩
        · rename_i hnot
          split
          · exact ⟨rfl, rfl, fun _ h => h, .inr fun _ _ => rfl⟩
          · refine ⟨rfl, rfl, fun _ h => h, .inr ?_⟩
            apply untouched_except (Bool.not_eq_true _ ▸ hnot)
            · intro rep' hne
              rw [Table.get?_erase, if_neg hne]
            · intro rep' hne
              rw [Table.get?_erase, if_neg hne]
            · intro rep' hne
              rw [Table.get?_erase, if_neg hne]
            · rfl
    apply (hstays s hs trivial (by simpa [Knows] using hord)).mono
    · exact fun _ _ _ h => h
    · exact fun _ _ _ h => h.1
  · exact .pure fun _ _ _ _ => rfl

/-! ### Debit, delivery and refund -/

/-- The order of a thread that is paying is paid, or free of charge. -/
theorem Paying.status (hg : Paying orderId order g ∨ g = .changes orderId) (hclaim : g.claim s)
    (hord : s.Ordered orderId order) :
    g.order = some orderId ∧ 0 < order.amountMinor ∧
        s.repOrders.get? orderId = some { order with status := .paid } ∨
      g.order = none ∧ order.amountMinor = 0 := by
  obtain ⟨st, hrow⟩ := hord
  have howed : s.Owed orderId → 0 < order.amountMinor ∧
      s.repOrders.get? orderId = some { order with status := .paid } := by
    rintro ⟨r, hr, hprice, hpaid⟩
    rw [hr] at hrow
    cases hrow
    dsimp only at hpaid hprice
    rw [hpaid] at hr
    exact ⟨hprice, hr⟩
  rcases hg with (rfl | ⟨rfl, hfree⟩) | rfl
  · exact .inl ⟨rfl, howed hclaim⟩
  · exact .inr ⟨rfl, hfree⟩
  · exact .inl ⟨rfl, howed hclaim⟩

/-- An order without a price is never owed. -/
theorem not_owed_of_free (hord : s.Ordered orderId order) (hfree : order.amountMinor = 0) :
    ¬s.Owed orderId := by
  rintro ⟨r, hr, hprice, -⟩
  obtain ⟨st, hrow⟩ := hord
  rw [hr] at hrow
  cases hrow
  dsimp only at hprice
  omega

/-- The order of a thread that is paying is active. -/
theorem Paying.active {st : RepOrderStatus} (hg : Paying orderId order g ∨ g = .changes orderId)
    (hclaim : g.claim s) (hrow : s.repOrders.get? orderId = some { order with status := st }) :
    st.active = true := by
  have howed : s.Owed orderId → st.active = true := by
    rintro ⟨r, hr, -, hpaid⟩
    rw [hrow] at hr
    cases hr
    obtain rfl : st = .paid := hpaid
    rfl
  rcases hg with (rfl | ⟨rfl, -⟩) | rfl
  · exact howed hclaim
  · obtain ⟨r, hr, hserved⟩ := hclaim
    rw [hrow] at hr
    cases hr
    exact hserved.1
  · exact howed hclaim

/-- The delivery settles the order. -/
theorem deliver_spec {st : RepOrderStatus} (hs : s.MarketBooks)
    (hg : Paying orderId order g ∨ g = .changes orderId) (hclaim : g.claim s)
    (hord : s.Ordered orderId order) (hst : st.delivered = true)
    (horders : t.repOrders = s.repOrders.update orderId fun r => { r with status := st })
    (hledger : t.ledger = s.ledger)
    (hsubs : ∀ rep, t.subscribed rep = true → s.subscribed rep = true ∨
      order.isPurchase = true ∧ order.representativeId = rep) :
    Moved (.pay owner orderId telegramId) g (.settled orderId) s t := by
  have hstatus := Paying.status hg hclaim hord
  obtain ⟨st', hrow⟩ := hord
  have hserved : RepOrder.Served { order with status := st } := RepOrder.served_of_delivered hst
  have hnotPaid : st ≠ .paid := by
    rintro rfl
    cases hst
  have hbooked : Booked t.ledger orderId { order with status := st } := by
    rw [hledger]
    have hold := hs.booked _ _ hrow
    rcases hstatus with ⟨-, hprice, hpaid⟩ | ⟨-, hfree⟩
    · exact (hs.booked _ _ hpaid).deliver hprice rfl hst
    · apply hold.unprice hfree
      rintro rfl
      cases hst
  have hsold : t.Sold := hs.sold.write hrow horders (fun _ => hserved)
    (fun _ _ => .inl (Paying.active hg hclaim hrow))
    fun rep hrep => (hsubs rep hrep).imp_right fun h => ⟨h.1, h.2, hserved⟩
  refine ⟨hs.write hrow horders (by rw [hledger, List.append_nil]) (by simp) hbooked hsold, ?_, ?_⟩
  · exact ⟨{ order with status := st }, by simp [horders, hrow], hserved⟩
  · apply MarketStep.write hrow horders
    · exact fun _ he => hledger ▸ he
    · exact fun _ => hserved
    · rcases hstatus with ⟨hmine, -⟩ | ⟨-, hfree⟩
      · exact .inl hmine
      · exact .inr (not_owed_of_free ⟨st', hrow⟩ hfree)
    · intro orderId' hmine
      rcases hstatus with ⟨hmine', -⟩ | ⟨hnone, -⟩
      · rw [hmine] at hmine'
        exact Option.some.inj hmine'
      · rw [hmine] at hnone
        cases hnone
    · exact fun _ h => by cases h
    · exact fun _ hpaid => (hnotPaid hpaid).elim
    · exact .inl tainted_settled
    · exact fun _ => tainted_settled

/-- The refund gives the order back. -/
theorem refund_spec {fresh : String} (hs : s.MarketBooks)
    (hprice : 0 < order.amountMinor)
    (hrow : s.repOrders.get? orderId = some { order with status := .paid })
    (hwallets : t.accounts = s.accounts ∧ t.credits = s.credits ∧ t.profiles = s.profiles ∧
      t.subscriptions = s.subscriptions)
    (horders : t.repOrders = s.repOrders.update orderId fun r =>
      { r with status := .failedRefunded })
    (hledger : t.ledger = s.ledger ++ [⟨fresh, order.owner, telegramId, order.amountMinor,
      .repRefund, "refund:" ++ orderId⟩]) :
    Moved (.pay owner orderId telegramId) (.takes orderId) .free s t := by
  have hbooked : Booked t.ledger orderId { order with status := .failedRefunded } := by
    rw [hledger]
    exact (hs.booked _ _ hrow).refund hprice rfl
  -- A paid order with a price is not served.
  have hnotServed : ¬RepOrder.Served { order with status := .paid } := by
    intro hserved
    cases hserved.2 hprice
  have hsold : t.Sold := by
    apply hs.sold.write hrow horders
    · exact fun h => (hnotServed h).elim
    · exact fun _ h => by cases h
    · intro rep hrep
      refine .inl ?_
      simpa only [Shop.subscribed, hwallets.2.2.2] using hrep
  refine ⟨hs.write hrow horders hledger (by simp [LedgerEntry.isOf]) hbooked hsold, trivial, ?_⟩
  apply MarketStep.write hrow horders
  · exact fun _ he => hledger ▸ List.mem_append_left _ he
  · exact fun h => (hnotServed h).elim
  · exact .inl rfl
  · exact fun _ h => (Option.some.inj h).symm
  · exact fun _ h => by cases h
  · exact fun _ h => by cases h
  · exact .inr (untouched_of_rows hwallets.1 hwallets.2.1 hwallets.2.2.1 hwallets.2.2.2)
  · intro htaint
    rcases htaint orderId rfl with h | h
    · cases h
    · cases h

/-- The debit of an order with a price takes it, and the debit of a free one settles it. -/
theorem debit_spec {entries : List LedgerEntry} {fresh : String} (hs : s.MarketBooks)
    (hord : s.Ordered orderId order) (hamount : 0 ≤ order.amountMinor)
    (hnew : 0 < order.amountMinor →
      s.hasEntry order.owner order.debitKind ("representative:" ++ orderId) = false)
    (halone : order.isPurchase = true → s.alone orderId order = true)
    (hentries : entries = [debitEntry fresh orderId telegramId order] ∨
      entries = [] ∧ order.amountMinor = 0)
    (hrows : t.accounts = s.accounts ∧ t.credits = s.credits ∧ t.profiles = s.profiles ∧
      t.subscriptions = s.subscriptions)
    (horders : t.repOrders = s.repOrders.update orderId fun r => { r with status := .paid })
    (hledger : t.ledger = s.ledger ++ entries) :
    ∃ g, Paying orderId order g ∧ Moved (.pay owner orderId telegramId) .free g s t := by
  obtain ⟨st, hrow⟩ := hord
  have hold := hs.booked _ _ hrow
  have hof : ∀ e ∈ entries, e.isOf orderId = true := by
    intro e he
    rcases hentries with rfl | ⟨rfl, -⟩
    · rw [List.mem_singleton.mp he]
      exact debitEntry_isOf fresh telegramId
    · cases he
  have hmem : ∀ e ∈ s.ledger, e ∈ t.ledger := fun _ he => hledger ▸ List.mem_append_left _ he
  have huntouched := untouched_of_rows hrows.1 hrows.2.1 hrows.2.2.1 hrows.2.2.2
  have hnow : t.repOrders.get? orderId = some { order with status := .paid } := by
    simp [horders, hrow]
  have hsold : (RepOrder.Served { order with status := st } →
      RepOrder.Served { order with status := .paid }) → t.Sold := by
    intro hserved
    apply hs.sold.write hrow horders hserved
    · exact fun hpurchase _ => .inr (halone hpurchase)
    · intro rep hrep
      refine .inl ?_
      simpa only [Shop.subscribed, hrows.2.2.2] using hrep
  by_cases hprice : 0 < order.amountMinor
  · -- Without an entry the order is pending.
    have hpending : st = .pending := by
      by_contra hne
      obtain ⟨e, he, howner, hkind, href⟩ := hold.debited hprice hne
      have hnone := hnew hprice
      rw [Shop.hasEntry, List.any_eq_false] at hnone
      apply hnone e he
      simp only [Bool.and_eq_true, decide_eq_true_eq]
      exact ⟨⟨howner, hkind⟩, href⟩
    subst hpending
    obtain rfl : entries = [debitEntry fresh orderId telegramId order] := by
      rcases hentries with h | ⟨-, hzero⟩
      · exact h
      · omega
    have hbooked : Booked t.ledger orderId { order with status := .paid } := by
      rw [hledger]
      exact hold.debit hprice rfl fresh telegramId
    have hserved : RepOrder.Served { order with status := .pending } →
        RepOrder.Served { order with status := .paid } := by
      intro h
      cases h.1
    refine ⟨.takes orderId, .inl rfl, hs.write hrow horders hledger hof hbooked (hsold hserved),
      ⟨_, hnow, hprice, rfl⟩, ?_⟩
    apply MarketStep.write hrow horders hmem
    · exact hserved
    · refine .inr ?_
      rintro ⟨r, hr, -, hpaid⟩
      rw [hrow] at hr
      cases hr
      cases hpaid
    · exact fun _ h => by cases h
    · exact fun _ h => ⟨(Option.some.inj h).symm, rfl⟩
    · exact fun _ _ => rfl
    · exact .inr huntouched
    · intro htaint
      rcases htaint orderId rfl with h | h
      · cases h
      · cases h
  · have hfree : order.amountMinor = 0 := by omega
    have hbooked : Booked t.ledger orderId { order with status := .paid } := by
      have hstatus : Booked s.ledger orderId { order with status := .paid } :=
        hold.unprice hfree (by decide)
      rw [hledger]
      rcases hentries with rfl | ⟨rfl, -⟩
      · exact hstatus.debit_free hfree fresh telegramId
      · simpa using hstatus
    have hserved : RepOrder.Served { order with status := .paid } :=
      ⟨rfl, fun h => absurd h hprice⟩
    refine ⟨.settled orderId, .inr ⟨rfl, hfree⟩,
      hs.write hrow horders hledger hof hbooked (hsold fun _ => hserved), ⟨_, hnow, hserved⟩, ?_⟩
    apply MarketStep.write hrow horders hmem
    · exact fun _ => hserved
    · exact .inr (not_owed_of_free ⟨st, hrow⟩ hfree)
    · exact fun _ h => by cases h
    · exact fun _ h => by cases h
    · exact fun h => absurd h hprice
    · exact .inr huntouched
    · exact fun _ => tainted_settled

/-! ### Provisioning -/

/-- A new subscription keeps the custody of its order. -/
theorem keeps_subscribe (hg : Paying orderId order g) (hpurchase : order.isPurchase = true)
    (hord : s.Ordered orderId order) (now : ℕ) :
    (repStep .delivery (subscribeTx orderId order now)).Keeps marketCustody
      (.pay owner orderId telegramId) (fun g' _ _ => g' = .settled orderId)
      (fun g' _ _ => Paying orderId order g') g s := by
  apply keeps_commit
  · intro o t ht hclaim hrel _
    simp only [subscribeTx, Tx.wp_bind, Tx.wp_write, Tx.wp_read, Tx.wp_require, id_eq]
    refine ⟨fun _ => ⟨fun _ => ⟨.settled orderId, ?_, fun _ _ _ _ => rfl⟩, ?_⟩, ?_⟩
    · refine deliver_spec ht (.inl hg) hclaim (hord.later hrel.1) rfl rfl rfl ?_
      exact fun rep hrep => (subscribed_insert rfl hrep).imp_right fun hid => ⟨hpurchase, hid⟩
    · exact fun _ _ => hg
    · exact fun _ => hg
  · exact fun _ _ _ h _ => h

/-- Provisioning a purchase keeps the custody of its order. -/
theorem keeps_provisionPurchase (hg : Paying orderId order g) (hpurchase : order.isPurchase = true)
    (hs : s.MarketBooks) (hclaim : g.claim s) (hord : s.Ordered orderId order) :
    (provisionPurchase orderId order).Keeps marketCustody (.pay owner orderId telegramId)
      (fun g' _ _ => g' = .settled orderId) (fun g' _ _ => Paying orderId order g') g s := by
  have hknown : Knows [(orderId, order)] s := by simpa [Knows] using hord
  have hfails : True → ∀ (e : Failure) (t : Shop), Paying orderId order g := fun _ _ _ => hg
  apply stays_look.andThen hs hclaim hknown hfails
  intro now t ht hclaim hknown
  apply (stays_applyPolicy hg hpurchase).andThen ht hclaim hknown hfails
  intro _ t ht hclaim hknown
  apply stays_look.andThen ht hclaim hknown hfails
  intro account t ht hclaim hknown
  have hsubscribe : ∀ t, Knows [(orderId, order)] t →
      (repStep .delivery (subscribeTx orderId order now)).Keeps marketCustody
        (.pay owner orderId telegramId) (fun g' _ _ => g' = .settled orderId)
        (fun g' _ _ => Paying orderId order g') g t := fun t hknown =>
    keeps_subscribe hg hpurchase (hknown _ (List.mem_singleton_self _) : t.Ordered orderId order) now
  cases account with
  | some account =>
      apply stays_insist.andThen ht hclaim hknown hfails
      exact fun _ t _ _ hknown => hsubscribe t hknown
  | none =>
      apply stays_insist.andThen ht hclaim hknown hfails
      intro _ t ht hclaim hknown
      apply stays_look.andThen ht hclaim hknown hfails
      intro _ t ht hclaim hknown
      apply stays_ofExcept.andThen ht hclaim hknown hfails
      intro _ t ht hclaim hknown
      apply (stays_createAccount hg hpurchase).andThen ht hclaim hknown hfails
      exact fun _ t _ _ hknown => hsubscribe t hknown

/-- After a renewal has begun to write a policy nothing raises, unless the order is free. -/
theorem Paying.not_raised {part : RepPart} {o : Moment} {e : Failure}
    (hg : Paying orderId order g) (hclaim : g.late.claim t) (hord : t.Ordered orderId order)
    (hok : marketOk (.pay owner orderId telegramId) (.rep part) o t)
    (hpart : partOk orderId order o t part → o.raised = none) (hraised : o.raised = some e) :
    Paying orderId order g.late := by
  rcases hg with rfl | ⟨rfl, hfree⟩
  · obtain ⟨r, hr, hprice, -⟩ := hclaim
    obtain ⟨st, hrow⟩ := hord
    rw [hr] at hrow
    cases hrow
    rw [hpart ((marketOk_of_ordered hok ⟨st, hr⟩).2 hprice)] at hraised
    cases hraised
  · exact .inr ⟨rfl, hfree⟩

/-- A part of a renewal after its first write. -/
theorem keeps_late {part : RepPart} {body : ShopTx Unit} (hg : Paying orderId order g)
    (hord : s.Ordered orderId order)
    (hbody : ∀ t, body.wp (fun _ u => u.repOrders = t.repOrders ∧ u.ledger = t.ledger ∧
      u.subscriptions = t.subscriptions) (fun _ _ => False) t)
    (hpart : ∀ o t, partOk orderId order o t part → o.raised = none) :
    (repStep part fun _ => body).Keeps marketCustody (.pay owner orderId telegramId)
      (fun g' _ t => g' = g.late ∧ t.Ordered orderId order) (fun g' _ _ => Paying orderId order g')
      g.late s := by
  have htainted : g.late.Tainted (.pay owner orderId telegramId) := by
    rcases hg with rfl | ⟨rfl, -⟩
    · exact tainted_changes
    · exact tainted_settled
  apply keeps_commit
  · intro o t ht hclaim hrel hok
    have hnow : t.Ordered orderId order := hord.later hrel.1
    apply Tx.wp_mono (hbody t)
    · rintro _ u ⟨horders, hledger, hrows⟩
      have hsubs : ∀ rep, u.subscribed rep = true → t.subscribed rep = true := by
        simp only [Shop.subscribed, hrows, imp_self, implies_true]
      have hstep : MarketStep (.pay owner orderId telegramId) g.late g.late t u :=
        .frame horders hledger rfl (.inl htainted) id
      refine ⟨fun _ => ⟨g.late, ⟨ht.frame horders hledger hsubs, ?_, hstep⟩, ?_⟩, fun e hraised => ?_⟩
      · exact claim_frame hclaim horders hledger
      · exact fun v _ _ hlater => ⟨rfl, hnow.later (hstep.past.trans hlater.1)⟩
      · exact hg.not_raised hclaim hnow hok (hpart o t) hraised
    · exact fun _ _ h => h.elim
  · exact fun _ _ _ h _ => h

/-- The first write of a renewal. -/
theorem keeps_credit (hg : Paying orderId order g) :
    (repStep .credit fun _ => Tx.write fun s => { s with
      credits := s.credits.upsert order.representativeId order.snapshot.credit
        fun _ => order.snapshot.credit }).Keeps marketCustody (.pay owner orderId telegramId)
      (fun g' _ _ => g' = g.late) (fun g' _ _ => Paying orderId order g') g s := by
  apply keeps_commit
  · intro o t ht hclaim _ _
    rw [Tx.wp_write]
    refine ⟨fun _ => ⟨g.late, ⟨ht.frame rfl rfl fun _ h => h, ?_, ?_⟩, fun _ _ _ _ => rfl⟩, fun _ _ => hg⟩
    · rcases hg with rfl | ⟨rfl, -⟩
      · exact hclaim
      · exact hclaim
    · rcases hg with rfl | ⟨rfl, -⟩
      · exact .frame rfl rfl rfl (.inl tainted_changes) fun _ => tainted_changes
      · exact .frame rfl rfl rfl (.inl tainted_settled) id
  · exact fun _ _ _ h _ => h

/-- The policy of a renewal. -/
theorem keeps_applyPolicy (hg : Paying orderId order g) (hrenewal : order.isPurchase = false)
    (hs : s.MarketBooks) (hclaim : g.claim s) (hord : s.Ordered orderId order) :
    (applyPolicy order.owner order.representativeId order.snapshot).Keeps marketCustody
      (.pay owner orderId telegramId) (fun g' _ t => g' = g.late ∧ t.Ordered orderId order)
      (fun g' _ _ => Paying orderId order g') g s := by
  have hknown : Knows [(orderId, order)] s := by simpa [Knows] using hord
  have hfails : True → ∀ (e : Failure) (t : Shop), Paying orderId order g := fun _ _ _ => hg
  apply stays_look.andThen hs hclaim hknown hfails
  intro _ t ht hclaim hknown
  apply stays_ofExcept.andThen ht hclaim hknown hfails
  intro _ t ht hclaim hknown
  apply stays_outside.andThen ht hclaim hknown hfails
  intro _ t ht hclaim hknown
  apply (keeps_credit hg).bind ht hclaim
  rintro g' _ u hu hclaim hpast rfl
  have hord : u.Ordered orderId order := (hknown _ (List.mem_singleton_self _)).later hpast
  apply (keeps_late hg hord ?_ ?_).bind hu hclaim
  · rintro g' _ v hv hclaim - ⟨rfl, hord⟩
    apply keeps_late hg hord
    · exact fun _ => ⟨rfl, rfl, rfl⟩
    · intro o t hpart
      rw [partOk, hrenewal] at hpart
      simpa using hpart
  · exact fun _ => ⟨rfl, rfl, rfl⟩
  · intro o t hpart
    rw [partOk, hrenewal] at hpart
    simpa using hpart

/-- The renewal of a bot leaves orders and ledger. -/
theorem renewBot_frame (order : RepOrder) (s : Shop) (sub : Subscription) :
    (renewBot order sub s).repOrders = s.repOrders ∧ (renewBot order sub s).ledger = s.ledger ∧
      (renewBot order sub s).subscriptions = s.subscriptions := by
  unfold renewBot
  split
  · split
    · exact ⟨rfl, rfl, rfl⟩
    · exact ⟨rfl, rfl, rfl⟩
  · exact ⟨rfl, rfl, rfl⟩

/-- An extended subscription keeps the custody of its order. -/
theorem keeps_extend (hg : Paying orderId order g) (hrenewal : order.isPurchase = false)
    (hord : s.Ordered orderId order) (sub : Subscription) (now : ℕ) :
    (repStep .delivery (extendTx orderId order sub now)).Keeps marketCustody
      (.pay owner orderId telegramId) (fun g' _ _ => g' = .settled orderId)
      (fun g' _ _ => Paying orderId order g') g.late s := by
  apply keeps_commit
  · intro o t ht hclaim hrel hok
    have hnow : t.Ordered orderId order := hord.later hrel.1
    have hlate : Paying orderId order g.late ∨ g.late = .changes orderId := by
      rcases hg with rfl | ⟨rfl, hfree⟩
      · exact .inr rfl
      · exact .inl (.inr ⟨rfl, hfree⟩)
    have hbot := renewBot_frame order (t.enable order.representativeId) sub
    simp only [extendTx, Tx.wp_bind, Tx.wp_write]
    refine ⟨fun _ => ⟨.settled orderId, ?_, fun _ _ _ _ => rfl⟩, fun e hraised => ?_⟩
    · apply deliver_spec ht hlate hclaim hnow
      · exact (rfl : RepOrderStatus.delivered .renewed = true)
      · dsimp only [Shop.updateRepOrder]
        rw [hbot.1]
        rfl
      · exact hbot.2.1
      · refine fun rep hrep => .inl (subscribed_of_rows (fun row hrow => ?_) hrep)
        obtain ⟨old, hold, rfl⟩ := List.mem_map.mp hrow
        have hsubs : (renewBot order sub (t.enable order.representativeId)).subscriptions =
            t.subscriptions := hbot.2.2
        refine ⟨old, hsubs ▸ hold, ?_⟩
        dsimp only
        split
        · rfl
        · rfl
    · apply hg.not_raised hclaim hnow hok _ hraised
      intro hpart
      rw [partOk, hrenewal] at hpart
      simpa using hpart
  · exact fun _ _ _ h _ => h

/-- Provisioning a renewal keeps the custody of its order. -/
theorem keeps_provisionRenewal (hg : Paying orderId order g) (hrenewal : order.isPurchase = false)
    (hs : s.MarketBooks) (hclaim : g.claim s) (hord : s.Ordered orderId order) :
    (provisionRenewal orderId order).Keeps marketCustody (.pay owner orderId telegramId)
      (fun g' _ _ => g' = .settled orderId) (fun g' _ _ => Paying orderId order g') g s := by
  have hknown : Knows [(orderId, order)] s := by simpa [Knows] using hord
  have hfails : True → ∀ (e : Failure) (t : Shop), Paying orderId order g := fun _ _ _ => hg
  apply stays_look.andThen hs hclaim hknown hfails
  intro now t ht hclaim hknown
  apply stays_look.andThen ht hclaim hknown hfails
  intro sub t ht hclaim hknown
  apply (keeps_applyPolicy hg hrenewal ht hclaim (hknown _ (List.mem_singleton_self _))).bind ht
    hclaim
  rintro g' _ u _ _ - ⟨rfl, hord⟩
  exact keeps_extend hg hrenewal hord sub now

/-- Provisioning settles the order, or it raises with the order still in hand. -/
theorem keeps_provisionRep (hg : Paying orderId order g) (hs : s.MarketBooks) (hclaim : g.claim s)
    (hord : s.Ordered orderId order) :
    (provisionRep owner orderId).Keeps marketCustody (.pay owner orderId telegramId)
      (fun g' _ _ => g' = .settled orderId) (fun g' _ _ => Paying orderId order g') g s := by
  have hread : (readRepOrder .plain orderId owner).Keeps marketCustody
      (.pay owner orderId telegramId)
      (fun g' order t => g' = g ∧ order.owner = owner ∧ t.Ordered orderId order)
      (fun g' _ _ => Paying orderId order g') g s := by
    apply keeps_readRepOrder.mono
    · exact fun _ _ _ h => h
    · rintro g' e t rfl
      exact hg
  apply hread.bind hs hclaim
  rintro g' order' t ht hnow hpast ⟨rfl, howner, hord'⟩
  -- The order that is read again is the same, but for its status.
  have hamount : order'.amountMinor = order.amountMinor := by
    obtain ⟨st, hst⟩ := hord.later hpast
    obtain ⟨st', hst'⟩ := hord'
    rw [hst] at hst'
    exact (congrArg RepOrder.amountMinor (Option.some.inj hst')).symm
  have hsame : ∀ g, Paying orderId order' g → Paying orderId order g :=
    fun g h => h.imp_right fun hfree => ⟨hfree.1, hamount ▸ hfree.2⟩
  have hg' : Paying orderId order' g' := hg.imp_right fun hfree => ⟨hfree.1, hamount ▸ hfree.2⟩
  have hbranch : (provisionBranch orderId order').Keeps marketCustody
      (.pay owner orderId telegramId) (fun g' _ _ => g' = .settled orderId)
      (fun g' _ _ => Paying orderId order g') g' t := by
    unfold provisionBranch
    split
    · rename_i hpurchase
      exact (keeps_provisionPurchase hg' hpurchase ht hnow hord').mono (fun _ _ _ h => h)
        fun g _ _ => hsame g
    · rename_i hrenewal
      exact (keeps_provisionRenewal hg' (Bool.not_eq_true _ ▸ hrenewal) ht hnow hord').mono
        (fun _ _ _ h => h) fun g _ _ => hsame g
  apply hbranch.bind ht hnow
  rintro g'' _ u hu hclaim' hpast' rfl
  -- After the delivery only the payment of a free order raises.
  have hname : FailsIf (order.amountMinor ≤ 0) (.pay owner orderId telegramId)
      [(orderId, order')] (.rep .finish) := by
    intro o v e hknown hok hraised
    by_contra hprice
    have hord'' : v.Ordered orderId order' := hknown _ (List.mem_singleton_self _)
    have hpart : o.raised = none := (marketOk_of_ordered hok hord'').2 (by omega)
    rw [hpart] at hraised
    cases hraised
  have hfinish : StaysIf (order.amountMinor ≤ 0) (.pay owner orderId telegramId)
      (.settled orderId) [(orderId, order')]
      (do sweepExpired (.rep .finish) true; repResult (.rep .finish) orderId owner) :=
    .bind (staysIf_sweepExpired hname tainted_settled) fun _ => staysIf_repResult hname howner
  have hknown : Knows [(orderId, order')] u := by
    simpa [Knows] using hord'.later hpast'
  apply (hfinish u hu hclaim' hknown).mono
  · exact fun _ _ _ h => h
  · rintro g e v ⟨rfl, hfree⟩
    refine .inr ⟨rfl, ?_⟩
    rcases hg with rfl | ⟨-, hzero⟩
    · obtain ⟨r, hr, hprice, -⟩ := hclaim
      obtain ⟨st, hst⟩ := hord
      rw [hr] at hst
      cases hst
      exact absurd hprice (by dsimp only; omega)
    · exact hzero

/-! ### The refund and the payment -/

/-- The refund of an order in hand gives it back; one without a price is not refunded. -/
theorem keeps_refundRep {e : Failure} (hg : Paying orderId order g) (howner : order.owner = owner)
    (hs : s.MarketBooks) (hclaim : g.claim s) (hord : s.Ordered orderId order) :
    (refundRep owner orderId telegramId order e).Keeps marketCustody
      (.pay owner orderId telegramId) (fun g' _ _ => g'.order = none) (fun g' _ _ => g'.order = none)
      g s := by
  have hrefund : (Script.perform (.refund owner telegramId order.amountMinor ("refund:" ++ orderId))
      (commit (refundTx owner orderId telegramId order))).Keeps marketCustody
      (.pay owner orderId telegramId) (fun g' _ t => g' = .free ∧ 0 < order.amountMinor ∧
        t.Ordered orderId order) (fun g' _ _ => g'.order = none) g s := by
    apply keeps_commit
    · intro o t ht hgt hrel hok
      have hnow : t.Ordered orderId order := hord.later hrel.1
      obtain ⟨st, hrow⟩ := hnow
      by_cases hprice : 0 < order.amountMinor
      · obtain ⟨hraised, hfresh⟩ := hok _ hrow hprice
        rcases hg with rfl | ⟨rfl, hfree⟩
        · obtain ⟨r, hr, -, hpaid⟩ := hgt
          rw [hrow] at hr
          cases hr
          obtain rfl : st = .paid := hpaid
          have hunrefunded := (ht.booked _ _ hrow).kept (by
            dsimp only
            decide)
          simp only [refundTx, creditTx, demandPolicy, insertEntry, Tx.wp_bind, Tx.wp_require,
            Tx.wp_read]
          refine ⟨fun _ => ?_, fun hnot => (hnot hprice).elim⟩
          split
          · rename_i hentry
            obtain ⟨e, he, hkey⟩ := List.any_eq_true.mp hentry
            simp only [Bool.and_eq_true, decide_eq_true_eq] at hkey
            exact (hunrefunded ⟨e, he, hkey.1.2, hkey.2⟩).elim
          · simp only [Tx.wp_bind, Tx.wp_write, Tx.wp_read, Tx.wp_require, Tx.wp_pure]
            refine ⟨fun _ => ⟨fun _ => ⟨.free, ?_, ?_⟩, fun e he => ?_⟩, fun h => (h hfresh).elim⟩
            · subst howner
              exact refund_spec ht hprice hrow ⟨rfl, rfl, rfl, rfl⟩ rfl rfl
            · intro v _ _ hlater
              refine ⟨rfl, hprice, Shop.Ordered.later ⟨.failedRefunded, ?_⟩ hlater.1⟩
              simp [Shop.updateRepOrder, hrow]
            · rw [hraised] at he
              cases he
        · omega
      · have hsettled : g.order = none := by
          rcases hg with rfl | ⟨rfl, -⟩
          · obtain ⟨r, hr, hprice', -⟩ := hgt
            rw [hrow] at hr
            cases hr
            exact (hprice hprice').elim
          · rfl
        simp only [refundTx, creditTx, demandPolicy, Tx.wp_bind, Tx.wp_require]
        exact ⟨fun h => (hprice h).elim, fun _ => hsettled⟩
    · exact fun _ _ _ h _ => h
  apply hrefund.bind hs hclaim
  rintro g' _ t ht hgt - ⟨rfl, hprice, hnow⟩
  have hcleanup : (cleanupRep order).Keeps marketCustody (.pay owner orderId telegramId)
      (fun g' _ _ => g' = .free) (fun g' _ _ => g'.order = none) .free t := by
    apply (stays_cleanupRep t ht hnow hprice).mono
    · exact fun _ _ _ h => h
    · rintro g' e t rfl
      rfl
  apply hcleanup.bind ht hgt
  rintro g' _ u _ _ - rfl
  exact .raise fun _ _ _ _ => rfl

/-- The debit takes the order, or settles it if it is free. -/
theorem keeps_debit (howner : order.owner = owner) (hord : s.Ordered orderId order) :
    (repStep .debit (payRepTx owner orderId telegramId order)).Keeps marketCustody
      (.pay owner orderId telegramId)
      (fun g' _ t => Paying orderId order g' ∧ t.Ordered orderId order)
      (fun g' _ _ => g'.order = none) .free s := by
  apply keeps_commit
  · intro o t ht _ hrel hok
    have hnow : t.Ordered orderId order := hord.later hrel.1
    have hnew : 0 < order.amountMinor →
        t.hasEntry order.owner order.debitKind ("representative:" ++ orderId) = false :=
      fun hprice => (marketOk_of_ordered hok hnow).2 hprice
    have halone := (marketOk_of_ordered hok hnow).1 rfl
    have hpost : ∀ (entries : List LedgerEntry) (u : Shop), 0 ≤ order.amountMinor →
        (entries = [debitEntry o.fresh orderId telegramId order] ∨
          entries = [] ∧ order.amountMinor = 0) →
        (u.accounts = t.accounts ∧ u.credits = t.credits ∧ u.profiles = t.profiles ∧
          u.subscriptions = t.subscriptions) →
        (u.repOrders = t.repOrders.update orderId fun r => { r with status := .paid }) →
        u.ledger = t.ledger ++ entries →
        ∃ g', Moved (.pay owner orderId telegramId) .free g' t u ∧
          ∀ v : Shop, v.MarketBooks → g'.claim v → marketCustody.rely g' u v →
            Paying orderId order g' ∧ v.Ordered orderId order := by
      intro entries u hamount hentries hrows horders hledger
      obtain ⟨g', hpaying, hmoved⟩ :=
        debit_spec ht hnow hamount hnew halone hentries hrows horders hledger
      exact ⟨g', hmoved, fun v _ _ hlater =>
        ⟨hpaying, hnow.later (hmoved.step.past.trans hlater.1)⟩⟩
    subst howner
    simp only [payRepTx, Tx.wp_bind, Tx.wp_write]
    apply debitTx_spec
    · intro hamount hknown
      have hzero : order.amountMinor = 0 := by
        by_contra hne
        rw [hnew (by omega)] at hknown
        cases hknown
      refine ⟨fun _ => ?_, fun _ _ => rfl⟩
      exact hpost [] _ hamount (.inr ⟨rfl, hzero⟩) ⟨rfl, rfl, rfl, rfl⟩ rfl
        (List.append_nil _).symm
    · intro hamount _ _ _
      refine ⟨fun _ => ?_, fun _ _ => rfl⟩
      exact hpost _ _ hamount (.inl rfl) ⟨rfl, rfl, rfl, rfl⟩ rfl rfl
    · exact fun _ _ => rfl
  · exact fun _ _ _ h _ => h

/-- A payment ends with nothing in its hands. -/
theorem keeps_payRepOrder (hs : s.MarketBooks) :
    (payRepOrder owner orderId telegramId).Keeps marketCustody (.pay owner orderId telegramId)
      (fun g' _ _ => g'.order = none) (fun g' _ _ => g'.order = none) .free s := by
  have hfree : ∀ t, Holding.free.claim t := fun _ => trivial
  have hread : (readRepOrder .plain orderId owner).Keeps marketCustody
      (.pay owner orderId telegramId)
      (fun g' order t => g' = .free ∧ order.owner = owner ∧ t.Ordered orderId order)
      (fun g' _ _ => g'.order = none) .free s := by
    apply keeps_readRepOrder.mono
    · exact fun _ _ _ h => h
    · rintro g' e t rfl
      rfl
  apply hread.bind hs (hfree s)
  rintro g' order t ht - - ⟨rfl, howner, hord⟩
  have hknown : Knows [(orderId, order)] t := by simpa [Knows] using hord
  apply stays_insist.andThen ht (hfree t) hknown fun _ _ _ => rfl
  intro _ t ht _ hknown
  split
  · apply (staysIf_repResult failsIf_true howner t ht (hfree t) hknown).mono
    · rintro g' _ t rfl
      rfl
    · rintro g' _ t ⟨rfl, -⟩
      rfl
  · apply stays_insist.andThen ht (hfree t) hknown fun _ _ _ => rfl
    intro _ t ht _ hknown
    apply (keeps_debit howner (hknown _ (List.mem_singleton_self _))).bind ht (hfree t)
    rintro g _ u hu hclaim - ⟨hg, hord⟩
    have hprovision : (provisionRep owner orderId).Keeps marketCustody
        (.pay owner orderId telegramId) (fun g' _ _ => g'.order = none)
        (fun g' _ _ => Paying orderId order g') g u := by
      apply (keeps_provisionRep hg hu hclaim hord).mono
      · rintro g' _ t rfl
        rfl
      · exact fun _ _ _ h => h
    apply hprovision.handle hu hclaim
    exact fun g' e v hv hclaim hpast hfails =>
      keeps_refundRep hfails howner hv hclaim (hord.later hpast)

end Pay

/-- The calls keep the custody of the orders, transaction by transaction. -/
theorem keeps_script (c : MarketCall) {s : Shop} (hs : s.MarketBooks) :
    c.script.Keeps marketCustody c (fun g _ _ => g.order = none) (fun g _ _ => g.order = none)
      .free s := by
  have hstays : ∀ {p : ShopScript Unit}, Stays c .free [] p →
      p.Keeps marketCustody c (fun g _ _ => g.order = none) (fun g _ _ => g.order = none)
        .free s := by
    intro p hp
    apply (hp s hs trivial fun _ h => (List.not_mem_nil h).elim).mono
    · rintro g _ t rfl
      rfl
    · rintro g _ t ⟨rfl, -⟩
      rfl
  cases c with
  | create owner telegramId plan priceMinor renewalEnabled isPurchase =>
      have htainted : Holding.free.Tainted
          (.create owner telegramId plan priceMinor renewalEnabled isPurchase) :=
        fun _ h => False.elim h
      exact hstays (.bind (stays_createRepOrder htainted) fun _ => .pure)
  | pay owner orderId telegramId => exact keeps_payRepOrder hs
  | sweep force =>
      have htainted : Holding.free.Tainted (.sweep force) := fun _ h => False.elim h
      exact hstays (staysIf_sweepExpired failsIf_true htainted)

/-! ## Threads -/

/-- The other methods of the shop may leave anything in the other tables, and entries of
other kinds in the ledger. -/
def Shop.elsewhere (tables s : Shop) : Shop :=
  { tables with
    repOrders := s.repOrders
    subscriptions := s.subscriptions
    ledger := s.ledger ++ tables.ledger.filter fun e => !e.kind.isRep }

/-- Threads that carry out calls of the marketplace. -/
abbrev MarketSystem : Type 1 :=
  Pool MarketCall Moment ShopAction Shop Failure Unit

namespace MarketSystem

/-- What happens to the threads of the marketplace; they do not crash. -/
def next (w : MarketSystem) : PoolEvent MarketCall Moment Shop → Option MarketSystem
  | .crash => none
  | e => Pool.next MarketCall.script Shop.elsewhere w e

/-- The step relation of the marketplace. -/
def Step (w : MarketSystem) (e : PoolEvent MarketCall Moment Shop) (w' : MarketSystem) : Prop :=
  w.next e = some w'

/-- A step that avoids the defects of the marketplace. -/
def Allowed (w : MarketSystem) (e : PoolEvent MarketCall Moment Shop) : Prop :=
  Pool.Permitted marketOk w e

/-- The changes that a thread makes itself. -/
def ownSteps (es : List (PoolEvent MarketCall Moment Shop)) (w : MarketSystem) (i : ℕ) :
    List (Shop × Shop) :=
  Pool.ownSteps MarketCall.script Shop.elsewhere es w i

/-- A step of the market is an event of the pool. -/
theorem Step.pool {w w' : MarketSystem} {e : PoolEvent MarketCall Moment Shop}
    (h : Step w e w') : Pool.Step MarketCall.script Shop.elsewhere w e w' := by
  cases e with
  | crash => cases h
  | enter k | run i o | answer i | outside e => exact h

end MarketSystem

/-- Entries of other kinds reference no order. -/
theorem not_isOf_of_kind {e : LedgerEntry} (h : e.kind.isRep = false) (orderId : String) :
    e.isOf orderId = false := by
  cases hkind : e.kind with
  | topup | purchase | renewal | referral => simp [LedgerEntry.isOf, hkind]
  | repPurchase | repRenewal | repRefund =>
      rw [hkind] at h
      cases h

/-- Changes elsewhere keep the books. -/
theorem elsewhere_keeps (tables : Shop) {s : Shop} (hs : s.MarketBooks) :
    (Shop.elsewhere tables s).MarketBooks ∧ MarketPast s (Shop.elsewhere tables s) ∧
      (∀ g, marketCustody.rely g s (Shop.elsewhere tables s)) ∧
      ∀ orderId, (Shop.elsewhere tables s).Owed orderId → s.Owed orderId := by
  have hpast : MarketPast s (Shop.elsewhere tables s) :=
    ⟨fun _ r hr => ⟨r.status, hr, id⟩, fun _ he => List.mem_append_left _ he⟩
  have hother : ∀ e ∈ tables.ledger.filter (fun e => !e.kind.isRep), ∀ orderId,
      e.isOf orderId = false := by
    intro e he
    exact not_isOf_of_kind (by simpa using (List.mem_filter.mp he).2)
  refine ⟨⟨fun orderId r hr => ?_, fun e he orderId hof => ?_, ?_⟩, hpast,
    fun _ => ⟨hpast, fun _ _ => rfl⟩, fun _ h => h⟩
  · exact (hs.booked orderId r hr).append_other fun e he => hother e he orderId
  · rcases List.mem_append.mp he with hold | hnew
    · exact hs.known e hold orderId hof
    · rw [hother e hnew orderId] at hof
      cases hof
  · exact ⟨hs.sold.single, hs.sold.bought⟩

/-! ## All or nothing -/

/-- No representative has been sold yet. -/
structure Shop.Unsold (s : Shop) : Prop where
  orders : s.repOrders = .empty
  subscriptions : s.subscriptions = .empty
  ledger : ∀ e ∈ s.ledger, e.kind.isRep = false

/-- The order has been provisioned or renewed. -/
def Shop.Delivered (s : Shop) (orderId : String) : Prop :=
  ∃ r, s.repOrders.get? orderId = some r ∧ r.status.delivered = true

/-- A payment of an order, from a state of the marketplace to a later one: all or
nothing, and in isolation. -/
structure AllOrNothing (w : MarketSystem) (es : List (PoolEvent MarketCall Moment Shop))
    (w' : MarketSystem) : Prop where
  /-- When no payment is in progress, delivered orders are paid, and others are not. -/
  booked : (∀ t ∈ w.threads, ∀ orderId, ¬t.call.pays orderId) →
    ∀ orderId r, w.store.repOrders.get? orderId = some r →
      repDelta w.store.ledger orderId = if r.status.delivered then -r.amountMinor else 0
  /-- No order is both delivered and refunded. -/
  exclusive : ∀ orderId, w.store.Delivered orderId ∨ w'.store.Delivered orderId →
    ¬(refunded w.store.ledger orderId ∨ refunded w'.store.ledger orderId)
  /-- A payment of an order that fails has not changed a representative that had been
  provisioned. -/
  isolated : ∀ (i : ℕ) t orderId r, w.threads[i]? = some t → t.call.pays orderId →
    w'.store.repOrders.get? orderId = some r → r.status = .failedRefunded →
    ∀ p ∈ MarketSystem.ownSteps es w i, KeepsProvisioned p.1 p.2

/-- A shop that has sold nothing has its books in order. -/
theorem Shop.Unsold.books {s : Shop} (h : s.Unsold) : s.MarketBooks where
  booked orderId r hr := by
    rw [h.orders] at hr
    cases hr
  known e he orderId hof := by
    rw [not_isOf_of_kind (h.ledger e he) orderId] at hof
    cases hof
  sold :=
    { single := by
        intro orderId orderId' r r' hr
        rw [h.orders] at hr
        cases hr
      bought := by
        intro rep hrep
        rw [Shop.subscribed, h.subscriptions] at hrep
        cases hrep }

/-- The threads have their orders in custody. -/
def MarketSystem.Held (gs : List Holding) (w : MarketSystem) : Prop :=
  Pool.Held marketCustody gs w

/-- A call begins with nothing in its hands. -/
def marketBegin (_ : MarketCall) : Holding :=
  .free

/-- A call begins without a debt. -/
theorem held_begin (c : MarketCall) : marketCustody.holds (marketBegin c) = none ∧
    marketCustody.own c (marketBegin c) :=
  ⟨rfl, fun _ h => by cases h⟩

/-- Every call keeps the custody. -/
theorem held_script (c : MarketCall) (s : Shop) (hs : s.MarketBooks) :
    marketCustody.claim (marketBegin c) s ∧
      c.script.Keeps marketCustody c (fun g _ _ => g.order = none) (fun g _ _ => g.order = none)
        (marketBegin c) s :=
  ⟨trivial, keeps_script c hs⟩

/-- An allowed run is permitted. -/
theorem allowed_run {w w' : MarketSystem} {es : List (PoolEvent MarketCall Moment Shop)}
    (hrun : Run (Guarded MarketSystem.Step MarketSystem.Allowed) w es w') :
    Run (Guarded (Pool.Step MarketCall.script Shop.elsewhere) (Pool.Permitted marketOk)) w es w' :=
  hrun.mono fun _ _ _ h => ⟨h.1.pool, h.2⟩

/-- When no payment is in progress, nothing is owed. -/
theorem MarketSystem.Held.booked {w : MarketSystem} {gs : List Holding} (h : w.Held gs)
    (hidle : ∀ t ∈ w.threads, ∀ orderId, ¬t.call.pays orderId) {orderId : String} {r : RepOrder}
    (hr : w.store.repOrders.get? orderId = some r) :
    repDelta w.store.ledger orderId = if r.status.delivered then -r.amountMinor else 0 := by
  have hbooked := h.inv.booked orderId r hr
  have hnot : ¬w.store.Owed orderId := by
    intro howed
    obtain ⟨g, hg, hholds⟩ := h.covered orderId howed
    obtain ⟨i, hi⟩ := List.getElem?_of_mem hg
    have hlt : i < w.threads.length := by
      rw [← h.length]
      exact (List.getElem?_eq_some_iff.mp hi).1
    have hthread := List.getElem?_eq_getElem hlt
    exact hidle _ (List.mem_of_getElem? hthread) orderId (h.own i _ g hthread hi orderId hholds)
  by_cases hprice : 0 < r.amountMinor
  · have hpaid : r.status ≠ .paid := fun hpaid => hnot ⟨r, hr, hprice, hpaid⟩
    have hdelta := hbooked.priced hprice
    simpa [hpaid] using hdelta
  · rw [(hbooked.unpriced (by omega)).1]
    by_cases hnegative : r.amountMinor < 0
    · rw [hbooked.negative hnegative]
      rfl
    · have hzero : r.amountMinor = 0 := by omega
      simp [hzero]

/-- A delivered order has not been refunded. -/
theorem Shop.MarketBooks.not_refunded {s : Shop} (h : s.MarketBooks) {orderId : String}
    (hdelivered : s.Delivered orderId) : ¬refunded s.ledger orderId := by
  obtain ⟨r, hr, hstatus⟩ := hdelivered
  apply (h.booked orderId r hr).kept
  intro hfailed
  rw [hfailed] at hstatus
  cases hstatus

/-- A delivered order is not refunded later. -/
theorem Shop.Delivered.not_refunded_later {s t : Shop} {orderId : String}
    (h : s.Delivered orderId) (hpast : MarketPast s t) (ht : t.MarketBooks) :
    ¬refunded t.ledger orderId := by
  obtain ⟨r, hr, hstatus⟩ := h
  obtain ⟨st, hrow, hkept⟩ := hpast.orders orderId r hr
  have hactive : st.active = true := (hkept (RepOrder.served_of_delivered hstatus)).1
  apply (ht.booked orderId _ hrow).kept
  rintro rfl
  cases hactive

/-- The order of the call has not been refunded. -/
def Unfailed (c : MarketCall) (s : Shop) : Prop :=
  ∀ orderId r, c.pays orderId → s.repOrders.get? orderId = some r → r.status ≠ .failedRefunded

/-- A thread that has changed a representative has not been refunded. -/
theorem Holding.Tainted.unfailed {c : MarketCall} {g : Holding} {s : Shop} (h : g.Tainted c)
    (hclaim : g.claim s) : Unfailed c s := by
  intro orderId r hpays hr hfailed
  rcases h orderId hpays with rfl | rfl
  · obtain ⟨r', hr', -, hpaid⟩ := hclaim
    rw [hr] at hr'
    cases hr'
    rw [hpaid] at hfailed
    cases hfailed
  · obtain ⟨r', hr', hserved⟩ := hclaim
    rw [hr] at hr'
    cases hr'
    have hactive := hserved.1
    rw [hfailed] at hactive
    cases hactive

/-- Over every interleaving of the marketplace that avoids its defects: payments are all
or nothing, and isolated. -/
theorem order_all_or_nothing {s : Shop} {es es' : List (PoolEvent MarketCall Moment Shop)}
    {w w' : MarketSystem} (hs : s.Unsold)
    (hrun : Run (Guarded MarketSystem.Step MarketSystem.Allowed) (Pool.start s) es w)
    (hrun' : Run (Guarded MarketSystem.Step MarketSystem.Allowed) w es' w') :
    AllOrNothing w es' w' := by
  have hstart : MarketSystem.Held [] (Pool.start s) := by
    apply Pool.held_start hs.books
    rintro orderId ⟨r, hr, -⟩
    rw [hs.orders] at hr
    cases hr
  obtain ⟨gs, hw, -⟩ := Pool.Held.run held_begin held_script (fun tables _ => elsewhere_keeps tables)
    hstart (allowed_run hrun)
  obtain ⟨gs', hw', hpast⟩ := Pool.Held.run held_begin held_script
    (fun tables _ => elsewhere_keeps tables) hw (allowed_run hrun')
  constructor
  · exact fun hidle orderId r hr => MarketSystem.Held.booked hw hidle hr
  · rintro orderId hdelivered hrefunded
    have hlater : refunded w'.store.ledger orderId := by
      rcases hrefunded with ⟨e, he, hentry⟩ | h
      · exact ⟨e, hpast.ledger e he, hentry⟩
      · exact h
    rcases hdelivered with h | h
    · exact h.not_refunded_later hpast hw'.inv hlater
    · exact hw'.inv.not_refunded h hlater
  · intro i t orderId r ht hpays hr hfailed
    have hlt : i < gs.length := by
      rw [hw.length]
      exact (List.getElem?_eq_some_iff.mp ht).1
    have hisolated := (Pool.Held.isolated held_begin held_script
      (fun tables _ => elsewhere_keeps tables) (fun _ _ _ _ _ h => h.quiet)
      (fun _ _ _ _ _ h => h.stays) (fun _ _ _ _ h hclaim => h.unfailed hclaim)
      (fun c g s t htainted hfree hclaim hpast => ?_) hw ht (List.getElem?_eq_getElem hlt)
      (allowed_run hrun')).2
    · rcases hisolated with hunfailed | hquiet
      · exact (hunfailed orderId r hpays hr hfailed).elim
      · exact hquiet
    · cases g with
      | free => trivial
      | takes orderId => cases hfree
      | changes orderId => cases hfree
      | settled orderId => exact Shop.Done.later hclaim hpast

instance (w : MarketSystem) (e : PoolEvent MarketCall Moment Shop) : Decidable (w.Allowed e) :=
  Pool.decidablePermitted w e

/-! ### A second order of one customer -/

/-- A plan with a number of clients. -/
def panelPlan (planId : String) (maxClients : ℤ) : PlanSnapshot where
  planId := planId
  credit := ⟨1000, 0, maxClients⟩
  profile := ⟨"panel", [1], "rep_rep7_", 0, 0⟩
  durationDays := 30
  botAllowed := true

/-- A shop with an owner and a customer who has money. -/
def openShop : Shop :=
  { Shop.empty with
    wallets := Table.empty.insert ("shop", 7) 9000
    accounts := Table.empty.insert "shop" ⟨.owner, false⟩ }

/-- An open shop has sold nothing. -/
theorem openShop_unsold : openShop.Unsold where
  orders := rfl
  subscriptions := rfl
  ledger _ he := (List.not_mem_nil he).elim

/-- A customer orders a plan. -/
def ordering (orderId : String) (plan : PlanSnapshot) : List (PoolEvent MarketCall Moment Shop) :=
  .enter (.create "shop" 7 plan 1000 true true) ::
    List.replicate 4 (.run 0 ⟨1, orderId, none, 0, false⟩) ++ [.answer 0]

/-- Steps of a payment with a new random id. -/
def paying (steps : ℕ) (fresh : String) : List (PoolEvent MarketCall Moment Shop) :=
  List.replicate steps (.run 0 ⟨1, fresh, none, 0, false⟩)

/-- The first of two orders is paid, and the payment of the second one begins. -/
def secondOrder : List (PoolEvent MarketCall Moment Shop) :=
  ordering "first" (panelPlan "small" 10) ++ ordering "second" (panelPlan "large" 20) ++
    .enter (.pay "shop" "first" 7) :: paying 18 "debit" ++
    [.answer 0, .enter (.pay "shop" "second" 7)]

/-- The payment of the second order fails, and the panel has another policy. -/
theorem second_order_rewrites : ¬∀ s es es' w w', s.Unsold →
    Run MarketSystem.Step (Pool.start s) es w → Run MarketSystem.Step w es' w' →
      AllOrNothing w es' w' := by
  intro h
  have heval : ((secondOrder.foldlM MarketSystem.next (Pool.start openShop)).bind fun w =>
      ((paying 11 "again" ++ paying 2 "refund").foldlM MarketSystem.next w).map fun w' =>
        (w.threads[0]?.map Thread.call, (w'.store.repOrders.get? "second").map RepOrder.status,
          (MarketSystem.ownSteps (paying 11 "again" ++ paying 2 "refund") w 0).any fun p =>
            p.1.subscribed "rep7" && decide (p.2.credits.get? "rep7" ≠ p.1.credits.get? "rep7"))) =
        some (some (.pay "shop" "second" 7), some .failedRefunded, true) := by
    decide +kernel
  obtain ⟨w, hw, heval'⟩ := Option.bind_eq_some_iff.mp heval
  obtain ⟨w', hw', hobserved⟩ := Option.map_eq_some_iff.mp heval'
  simp only [Prod.mk.injEq, List.any_eq_true, Bool.and_eq_true, decide_eq_true_eq] at hobserved
  obtain ⟨hcall, hstatus, p, hp, hsub, hcredits⟩ := hobserved
  obtain ⟨t, ht, hpay⟩ := Option.map_eq_some_iff.mp hcall
  obtain ⟨r, hr, hfailed⟩ := Option.map_eq_some_iff.mp hstatus
  have hall := h openShop _ _ w w' openShop_unsold (Run.of_eval hw) (Run.of_eval hw')
  have hpays : t.call.pays "second" := by
    rw [hpay]
    rfl
  have hrows := hall.isolated 0 t "second" r ht hpays hr hfailed p hp "rep7" hsub
  exact hcredits (congrArg (fun rows => rows.2.1) hrows)

/-- Two orders for the same representative; the payment of the first one begins. -/
def bothOrdered : List (PoolEvent MarketCall Moment Shop) :=
  ordering "first" (panelPlan "small" 10) ++ ordering "second" (panelPlan "large" 20) ++
    [.enter (.pay "shop" "first" 7)]

/-- The policy of the first order cannot be written; then the second one is paid. -/
def failedThenPaid : List (PoolEvent MarketCall Moment Shop) :=
  paying 6 "debit" ++ .run 0 ⟨1, "", some .integrityError, 0, false⟩ :: paying 2 "refund" ++
    [.answer 0, .enter (.pay "shop" "second" 7)] ++ paying 18 "again" ++ [.answer 0]

/-- A payment that fails is refunded, and another one delivers the representative. -/
theorem order_all_or_nothing_refunded : ∃ w w' : MarketSystem,
    AllOrNothing w failedThenPaid w' ∧
      (w'.store.repOrders.get? "first").map RepOrder.status = some .failedRefunded ∧
      (w'.store.repOrders.get? "second").map RepOrder.status = some .provisioned ∧
      repDelta w'.store.ledger "first" = 0 ∧ repDelta w'.store.ledger "second" = -1000 := by
  have heval : (bothOrdered.foldlM
      (fun w e => if MarketSystem.Allowed w e then w.next e else none)
      (Pool.start openShop)).bind (fun w =>
        (failedThenPaid.foldlM
          (fun w e => if MarketSystem.Allowed w e then w.next e else none) w).map
          fun w' => ((w'.store.repOrders.get? "first").map RepOrder.status,
            (w'.store.repOrders.get? "second").map RepOrder.status,
            repDelta w'.store.ledger "first", repDelta w'.store.ledger "second")) =
        some (some .failedRefunded, some .provisioned, 0, -1000) := by
    decide +kernel
  obtain ⟨w, hw, heval'⟩ := Option.bind_eq_some_iff.mp heval
  obtain ⟨w', hw', hobserved⟩ := Option.map_eq_some_iff.mp heval'
  simp only [Prod.mk.injEq] at hobserved
  exact ⟨w, w', order_all_or_nothing openShop_unsold (Run.of_guarded_eval hw)
    (Run.of_guarded_eval hw'), hobserved⟩

end Commerce
end DarkXray
