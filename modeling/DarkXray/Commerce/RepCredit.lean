import DarkXray.Commerce.Marketplace
import DarkXray.Policy.Operations

/-!
# The credit of a renewed representative

The renewal of a representative writes the policy of the plan: {lit}`owner_put` checks it against
the clients that the representative has, {lit}`register_owner` sets the two kinds of credit to the
totals of the plan, and only then the subscription is extended.  What the representative has spent
stays as it is.

Main results:

- Theorem {lit}`wp_registerPlan`: what setting the totals of a plan does to the credit.
- Theorem {lit}`wp_provisionNow`: what a renewal does to the credit and to the subscription.
- Theorem {lit}`renewal_keeps_credit_iff`: a renewal gives the representative the credit of the plan
  exactly if nothing was spent before, and the plan does not lower the credit.
-/

namespace DarkXray
namespace Commerce

open Library Policy

/-! ## The panel -/

/-- The row of a client in {lit}`managed_clients`. -/
structure ClientLink where
  inbounds : List ℤ
  limitHwid : ℤ
  deleted : Bool
deriving DecidableEq

/-- The shop, the policy store, the managed clients and the inbounds of the engine. -/
structure RepPanel where
  shop : Shop
  store : Store
  links : Table String ClientLink
  inbounds : List ℤ

/-- Where something outside of the tables can fail. -/
inductive RenewalPoint where
  | debit
  | refund
  | profile
  | audit
  | tick
  | delivery
  | sweep
  | result
deriving DecidableEq, Repr

/-- The inputs of a call: the clock, new random ids, and what fails. -/
structure RenewalInputs where
  now : ℕ
  sweepAt : ℕ
  entryId : String
  refundId : String
  uuid : String
  fails : RenewalPoint → Bool

/-- The inputs of a transaction of the shop. -/
def RenewalInputs.moment (i : RenewalInputs) (fresh : String) : Moment :=
  ⟨i.now, fresh, none, 0, true⟩

/-- Procedures on the panel. -/
abbrev PanelTx (α : Type) : Type :=
  Tx RepPanel Failure α

/-- A procedure on the shop. -/
def inShop {α : Type} (m : ShopTx α) : PanelTx α :=
  Tx.within RepPanel.shop (fun shop p => { p with shop := shop }) m

/-- A procedure on the policy store. -/
def inStore {α : Type} (m : Tx Store Failure α) : PanelTx α :=
  Tx.within RepPanel.store (fun store p => { p with store := store }) m

/-- Something outside of the tables, which may fail. -/
def RenewalInputs.pass (i : RenewalInputs) (point : RenewalPoint) : PanelTx Unit :=
  Tx.require (i.fails point = false) .databaseError

/-! ## The policy of a plan -/

/-- {lit}`_representative_prefix`; the prefix of a saved plan is stripped and in lower case. -/
def representativePrefix (base rep : String) : String :=
  let suffix := rep ++ "_"
  if 64 < base.length + suffix.length then
    String.ofList (base.toList.take (64 - suffix.length)) ++ suffix
  else base ++ suffix

/-- The clients of a representative that are not deleted. -/
def RepPanel.clientsOf (p : RepPanel) (rep : String) : List (String × Client × ClientLink) :=
  p.store.clients.rows.filterMap fun r =>
    if r.2.owner = rep then
      ((p.links.get? r.1).filter fun l => l.deleted = false).map fun l => (r.1, r.2, l)
    else none

/-- The checks of {lit}`Manager.owner_put` in front of {lit}`register_owner`. -/
def checkOwnerPut (rep : String) (plan : OwnerProfile) (prefixText : String) (p : RepPanel) :
    Except Failure Unit := do
  let rows := p.clientsOf rep
  ensure (nameRe rep = true ∧ 1 ≤ plan.name.length ∧ plan.name.length ≤ 128)
    (.policyError "Invalid owner identity")
  ensure (plan.allowed.length ≤ 4096 ∧ ∀ i ∈ plan.allowed, 1 ≤ i)
    (.policyError "Invalid inbound assignments")
  ensure (prefixText.length ≤ 64 ∧ prefixText.toList.all nameChar = true)
    (.policyError "Invalid reseller client prefix")
  ensure (0 ≤ plan.maxClientIps ∧ plan.maxClientIps ≤ 1000)
    (.policyError "Expected an integer in [0, 1000]")
  ensure (0 ≤ plan.maxClientHwid ∧ plan.maxClientHwid ≤ 1000)
    (.policyError "Expected an integer in [0, 1000]")
  ensure (∀ i ∈ plan.allowed, i ∈ p.inbounds)
    (.policyError "Assigned inbound does not exist")
  ensure (∀ r ∈ rows, ∀ i ∈ r.2.2.inbounds, i ∈ plan.allowed)
    (.policyError "Detach or transfer affected clients before removing their inbound access")
  ensure (plan.maxClientIps = 0 ∨ ∀ r ∈ rows, ¬ (r.2.1.limitIp = 0 ∧ r.2.1.quotaBytes = 0) ∧
      r.2.1.limitIp ≤ plan.maxClientIps)
    (.policyError "Reduce existing client IP limits for unlimited-service clients before lowering the reseller max-client-IP policy")
  ensure (plan.maxClientHwid = 0 ∨ ∀ r ∈ rows, r.2.2.limitHwid ≠ 0 ∧
      r.2.2.limitHwid ≤ plan.maxClientHwid)
    (.policyError "Reduce existing client HWID limits before lowering the reseller max-client-HWID policy")
  ensure (prefixText = "" ∨
      ∀ r ∈ rows, prefixText.toList.isPrefixOf r.1.toLower.toList = true)
    (.policyError "Existing client identities must match the reseller prefix before enabling it")

/-- {lit}`Manager.owner_put` for a plan. -/
def ownerPut (actor : Actor) (rep : String) (plan : PlanSnapshot) (prefixText : String)
    (i : RenewalInputs) : PanelTx Unit := do
  Tx.require (actor.role = .owner) .permissionDenied
  let checked ← Tx.read (checkOwnerPut rep plan.profile prefixText)
  Tx.ofExcept checked
  inStore (registerOwner actor rep (.int plan.credit.volumeCreditBytes)
    (.int plan.credit.unlimitedCredit) (.int plan.credit.maxClients) (.bool false) .none i.uuid)
  Tx.transaction do
    let profile : OwnerProfile := { plan.profile with prefixText := prefixText }
    inShop (Tx.write fun s => { s with profiles := s.profiles.upsert rep profile fun _ => profile })
    i.pass .profile
  i.pass .audit
  i.pass .tick

/-- {lit}`_apply_policy`. -/
def applyPlan (owner rep : String) (plan : PlanSnapshot) (i : RenewalInputs) : PanelTx Unit := do
  let role ← Tx.read fun p => p.shop.actorFor owner
  let role ← Tx.ofExcept role
  ownerPut ⟨owner, role, []⟩ rep plan (representativePrefix plan.profile.prefixText rep) i

/-! ## The renewal -/

/-- {lit}`order`. -/
def findRepOrder (orderId owner : String) : PanelTx RepOrder := do
  let row ← Tx.read fun p => (p.shop.repOrders.get? orderId).filter (·.owner = owner)
  Tx.ofExcept (found row "Representative order not found")

/-- {lit}`sweep_expired(force=True)`. -/
def sweepNow (i : RenewalInputs) : PanelTx Unit := do
  i.pass .sweep
  let rows ← Tx.read fun p => p.shop.subscriptions.rows.filter fun r =>
    r.2.active && decide (r.2.expiresAt ≤ i.sweepAt)
  rows.forM fun r => Tx.transaction (inShop (suspendTx r.1 r.2 i.sweepAt (i.moment "")))

/-- {lit}`_provision` for a renewal. -/
def provisionNow (owner orderId : String) (i : RenewalInputs) : PanelTx Unit := do
  let order ← findRepOrder orderId owner
  let sub ← Tx.read fun p => (p.shop.subscriptions.get? (owner, order.buyer)).filter fun sub =>
    sub.representativeId = order.representativeId
  let sub ← Tx.ofExcept (found sub "Representative subscription is unavailable")
  applyPlan owner order.representativeId order.snapshot i
  Tx.transaction do
    inShop (extendTx orderId order sub i.now (i.moment ""))
    i.pass .delivery
  sweepNow i
  i.pass .result

/-- The transaction that takes the money. -/
def takeMoney (owner orderId : String) (telegramId : ℤ) (order : RepOrder) (i : RenewalInputs) :
    PanelTx Unit :=
  Tx.transaction do
    inShop (payRepTx owner orderId telegramId order (i.moment i.entryId))
    i.pass .debit

/-- The exception handler of {lit}`pay_order` for a renewal. -/
def giveBack (owner orderId : String) (telegramId : ℤ) (order : RepOrder) (i : RenewalInputs)
    (e : Failure) : PanelTx Unit := do
  Tx.transaction do
    inShop (refundTx owner orderId telegramId order (i.moment i.refundId))
    i.pass .refund
  Tx.raise e

/-- {lit}`pay_order` for a renewal. -/
def payRenewalNow (owner orderId : String) (telegramId : ℤ) (i : RenewalInputs) :
    PanelTx Unit := do
  let order ← findRepOrder orderId owner
  Tx.require (order.buyer = telegramId)
    (.policyError "Representative order does not belong to this Telegram account")
  if order.status ∈ [RepOrderStatus.provisioned, .renewed] then i.pass .result
  else do
    Tx.require (order.status ≠ .failedRefunded)
      (.policyError "This failed order was refunded; create a new order")
    takeMoney owner orderId telegramId order i
    Tx.handle (provisionNow owner orderId i) fun e => some (giveBack owner orderId telegramId order i e)

/-! ## The credit of a plan -/

/-- The bounds of a plan that can be saved. -/
structure PlanSnapshot.Sellable (plan : PlanSnapshot) : Prop where
  volume : 0 ≤ plan.credit.volumeCreditBytes ∧ plan.credit.volumeCreditBytes ≤ maxInt
  unlimited : 0 ≤ plan.credit.unlimitedCredit ∧ plan.credit.unlimitedCredit ≤ 1000000
  clients : 0 ≤ plan.credit.maxClients ∧ plan.credit.maxClients ≤ 1000000

/-- The refusals of {lit}`register_owner` because of credit that was spent. -/
def BlamesSpending (e : Failure) : Prop :=
  e = .policyError "Volume credit cannot be lower than currently allocated client volume" ∨
    e = .policyError "Unlimited credit cannot be lower than already spent user-month units"

/-- The unlimited credit of an owner, spent or not. -/
def unlimitedCreditOf (s : Store) (owner : String) : ℤ :=
  (s.owners.get? owner).elim 0 Owner.unlimitedCredit

/-- The plan covers what the representative has spent and sold. -/
def Covers (plan : PlanSnapshot) (rep : String) (s : Store) : Prop :=
  s.resourceCreditEnforced rep none = true →
    s.soldVolume rep ≤ plan.credit.volumeCreditBytes ∧ s.spent rep ≤ plan.credit.unlimitedCredit

/-- The plan admits the clients that the representative has. -/
def Admits (plan : PlanSnapshot) (rep : String) (s : Store) : Prop :=
  plan.credit.maxClients = 0 ∨ s.clientCount rep ≤ plan.credit.maxClients

/-- The totals of a plan are the credit of a representative. -/
structure Granted (plan : PlanSnapshot) (rep : String) (s t : Store) : Prop where
  credit : unlimitedCreditOf t rep = plan.credit.unlimitedCredit
  spent : t.spent rep = s.spent rep
  unspent : t.unspent rep = plan.credit.unlimitedCredit - s.spent rep

theorem unspent_eq (s : Store) (rep : String) :
    s.unspent rep = unlimitedCreditOf s rep - s.spent rep := by
  unfold Store.unspent unlimitedCreditOf Store.spent
  cases s.owners.get? rep <;> simp

theorem enforced_of_owner {actor : Actor} (hactor : actor.role = .owner) (s : Store)
    (rep : String) :
    s.resourceCreditEnforced rep (some actor) = s.resourceCreditEnforced rep none := by
  simp [Store.resourceCreditEnforced, hactor]

/-- The row that a plan writes. -/
theorem granted_of_owners {plan : PlanSnapshot} {rep : String} {s t : Store}
    (howners : t.owners = s.owners.upsert rep
      ⟨plan.credit.volumeCreditBytes, plan.credit.unlimitedCredit, 0, plan.credit.maxClients,
        false, false⟩ fun r =>
      { r with
        volumeCreditBytes := plan.credit.volumeCreditBytes
        unlimitedCredit := plan.credit.unlimitedCredit
        maxClients := plan.credit.maxClients
        manual := false }) : Granted plan rep s t := by
  have hcredit : unlimitedCreditOf t rep = plan.credit.unlimitedCredit := by
    unfold unlimitedCreditOf
    rw [howners, Table.get?_upsert, if_pos rfl]
    cases s.owners.get? rep <;> rfl
  have hspent : t.spent rep = s.spent rep := by
    unfold Store.spent
    rw [howners, Table.get?_upsert, if_pos rfl]
    cases s.owners.get? rep <;> rfl
  exact ⟨hcredit, hspent, by rw [unspent_eq, hcredit, hspent]⟩

/-- What precedes the checks of the credit in {lit}`register_owner`, and the new id of the ledger. -/
structure Regular (rep uuid : String) (s : Store) : Prop where
  name : nameRe rep = true
  volume : s.soldVolume rep ≤ maxInt
  fresh : s.resourceCreditLedger.get? ("unlimited-grant:" ++ uuid) = none

/-- How setting the totals of a plan may fail. -/
structure PlanRefused (plan : PlanSnapshot) (rep uuid : String) (s : Store) (e : Failure) :
    Prop where
  spent : BlamesSpending e → nameRe rep = true ∧ s.soldVolume rep ≤ maxInt ∧ ¬Covers plan rep s
  regular : Regular rep uuid s → BlamesSpending e ∨ Covers plan rep s ∧ ¬Admits plan rep s

theorem not_blamesSpending (message : String)
    (h : message ≠ "Volume credit cannot be lower than currently allocated client volume")
    (h' : message ≠ "Unlimited credit cannot be lower than already spent user-month units") :
    ¬BlamesSpending (.policyError message) := by
  rintro (heq | heq)
  · exact h (Failure.policyError.inj heq)
  · exact h' (Failure.policyError.inj heq)

/-- The credit checks pass exactly if the plan covers what was spent. -/
theorem covers_iff {plan : PlanSnapshot} {rep : String} {s : Store} :
    Covers plan rep s ↔
      ¬(s.resourceCreditEnforced rep none = true ∧
        plan.credit.volumeCreditBytes < s.soldVolume rep) ∧
      ¬(s.resourceCreditEnforced rep none = true ∧
        plan.credit.unlimitedCredit < s.spent rep) := by
  unfold Covers
  cases s.resourceCreditEnforced rep none with
  | false => simp
  | true => simp

/-- Setting the totals of a plan: it is refused because of what was spent exactly if the plan does
not cover it. -/
theorem wp_registerPlan {actor : Actor} (hactor : actor.role = .owner) {plan : PlanSnapshot}
    (hplan : plan.Sellable) (rep uuid : String) (s : Store) :
    (registerOwner actor rep (.int plan.credit.volumeCreditBytes)
      (.int plan.credit.unlimitedCredit) (.int plan.credit.maxClients) (.bool false) .none uuid).wp
      (fun _ t => s.soldVolume rep ≤ maxInt ∧ Covers plan rep s ∧ Admits plan rep s ∧
        Granted plan rep s t)
      (fun e _ => PlanRefused plan rep uuid s e) s := by
  have hvolume : ∀ n, creditArgument n (.int plan.credit.volumeCreditBytes) maxInt =
      .ok plan.credit.volumeCreditBytes := by
    intro n
    have hok := integer_ok_iff.mpr ⟨rfl, hplan.volume.1, hplan.volume.2⟩
    cases n <;> exact hok
  have hunlimited : ∀ n, creditArgument n (.int plan.credit.unlimitedCredit) 1000000 =
      .ok plan.credit.unlimitedCredit := by
    intro n
    have hok := integer_ok_iff.mpr ⟨rfl, hplan.unlimited.1, hplan.unlimited.2⟩
    cases n <;> exact hok
  have hclients : integer (.int plan.credit.maxClients) 0 1000000 = .ok plan.credit.maxClients :=
    integer_ok_iff.mpr ⟨rfl, hplan.clients.1, hplan.clients.2⟩
  have hspent : (s.owners.get? rep).elim 0 Owner.unlimitedSpent = s.spent rep := rfl
  unfold registerOwner Actor.require demandPolicy Store.insertCredit
  simp only [volumeAlias, if_true, hclients, optionalBool, hvolume, hunlimited, hspent,
    Tx.wp_bind, Tx.wp_require, Tx.wp_ofExcept, Tx.wp_transaction, Tx.wp_read, Tx.wp_when,
    Tx.wp_write, storeOwner, Except.ok.injEq, forall_eq', reduceCtorEq, false_imp_iff,
    implies_true, and_true, enforced_of_owner hactor, Actor.can_owner hactor, true_imp_iff,
    not_true_eq_false, Option.getD_some]
  constructor
  · intro hname
    constructor
    · intro allocated hallocated
      rw [Store.allocation_ok_iff, Store.volumeOf_all] at hallocated
      obtain ⟨hsum, rfl⟩ := hallocated
      constructor
      · intro hvolumeOk
        constructor
        · intro hunlimitedOk
          have hcovers : Covers plan rep s := covers_iff.mpr ⟨hvolumeOk, hunlimitedOk⟩
          constructor
          · intro hcount
            have hadmits : Admits plan rep s := by
              unfold Admits
              omega
            constructor
            · intro _
              constructor
              · exact fun _ => ⟨hsum, hcovers, hadmits, granted_of_owners rfl⟩
              · intro htaken
                refine ⟨?_, fun hregular => absurd hregular.fresh htaken⟩
                rintro (heq | heq)
                · cases heq
                · cases heq
            · exact fun _ => ⟨hsum, hcovers, hadmits, granted_of_owners rfl⟩
          · intro hcount
            have hother := not_blamesSpending
              "The requested client quota is below the current number of records"
              (by decide) (by decide)
            refine ⟨fun hblame => absurd hblame hother, fun _ => .inr ⟨hcovers, ?_⟩⟩
            unfold Admits
            omega
        · intro hunlimitedBad
          have hnot : ¬Covers plan rep s := fun h => hunlimitedBad (covers_iff.mp h).2
          exact ⟨fun _ => ⟨hname, hsum, hnot⟩, fun _ => .inl (.inr rfl)⟩
      · intro hvolumeBad
        have hnot : ¬Covers plan rep s := fun h => hvolumeBad (covers_iff.mp h).1
        exact ⟨fun _ => ⟨hname, hsum, hnot⟩, fun _ => .inl (.inl rfl)⟩
    · intro e he
      unfold Store.allocation at he
      rw [Store.volumeOf_all] at he
      split_ifs at he with hsum
      cases he
      refine ⟨?_, fun hregular => absurd hregular.volume hsum⟩
      rintro (heq | heq)
      · cases heq
      · cases heq
  · intro hname
    have hother := not_blamesSpending "Invalid owner name" (by decide) (by decide)
    exact ⟨fun hblame => absurd hblame hother, fun hregular => absurd hregular.name hname⟩

/-! ## The renewal and the credit -/

/-- The checks in front of {lit}`register_owner` do not look at what was spent. -/
theorem checkOwnerPut_error {rep prefixText : String} {plan : OwnerProfile} {p : RepPanel}
    {e : Failure} (h : checkOwnerPut rep plan prefixText p = .error e) : ¬BlamesSpending e := by
  unfold checkOwnerPut at h
  dsimp only at h
  simp only [except_bind_error_iff, ensure_error_iff] at h
  rcases h with ⟨_, rfl⟩ | ⟨_, _, ⟨_, rfl⟩ | ⟨_, _, ⟨_, rfl⟩ | ⟨_, _, ⟨_, rfl⟩ | ⟨_, _, ⟨_, rfl⟩ |
    ⟨_, _, ⟨_, rfl⟩ | ⟨_, _, ⟨_, rfl⟩ | ⟨_, _, ⟨_, rfl⟩ | ⟨_, _, ⟨_, rfl⟩ | ⟨_, _, _, rfl⟩⟩⟩⟩⟩⟩⟩⟩⟩
  all_goals exact not_blamesSpending _ (by decide) (by decide)

theorem actorFor_error {s : Shop} {owner : String} {e : Failure} (h : s.actorFor owner = .error e) :
    ¬BlamesSpending e := by
  unfold Shop.actorFor at h
  split at h
  · cases h
  · cases h
  · cases h
    exact not_blamesSpending _ (by decide) (by decide)
  · cases h
    exact not_blamesSpending _ (by decide) (by decide)

theorem checkOwnerPut_name {rep prefixText : String} {plan : OwnerProfile} {p : RepPanel}
    {u : Unit} (h : checkOwnerPut rep plan prefixText p = .ok u) : nameRe rep = true := by
  unfold checkOwnerPut at h
  dsimp only at h
  simp only [except_bind_ok_iff, ensure_ok_iff] at h
  obtain ⟨_, hname, _⟩ := h
  exact hname.1

/-- The renewal of an order gets as far as the credit checks. -/
structure Reaches (owner : String) (order : RepOrder) (p : RepPanel) : Prop where
  sub : ∃ sub, p.shop.subscriptions.get? (owner, order.buyer) = some sub ∧
    sub.representativeId = order.representativeId
  role : p.shop.actorFor owner = .ok .owner
  checks : checkOwnerPut order.representativeId order.snapshot.profile
    (representativePrefix order.snapshot.profile.prefixText order.representativeId) p = .ok ()
  volume : p.store.soldVolume order.representativeId ≤ maxInt

/-- Nothing outside of the tables fails, and the random ids are new. -/
structure Smooth (i : RenewalInputs) (p : RepPanel) : Prop where
  fails : ∀ point, i.fails point = false
  uuid : p.store.resourceCreditLedger.get? ("unlimited-grant:" ++ i.uuid) = none
  entry : ∀ e ∈ p.shop.ledger, e.id ≠ i.entryId

/-- How a renewal may fail. -/
structure RenewalRefused (owner : String) (order : RepOrder) (i : RenewalInputs) (p : RepPanel)
    (e : Failure) : Prop where
  spent : BlamesSpending e →
    Reaches owner order p ∧ ¬Covers order.snapshot order.representativeId p.store
  smooth : Reaches owner order p → (∀ point, i.fails point = false) →
    p.store.resourceCreditLedger.get? ("unlimited-grant:" ++ i.uuid) = none →
      BlamesSpending e ∨ Covers order.snapshot order.representativeId p.store ∧
        ¬Admits order.snapshot order.representativeId p.store

/-- A failure with another cause, which the smooth case excludes. -/
theorem RenewalRefused.other {owner : String} {order : RepOrder} {i : RenewalInputs}
    {p : RepPanel} {e : Failure} (he : ¬BlamesSpending e)
    (hnot : Reaches owner order p → (∀ point, i.fails point = false) → False) :
    RenewalRefused owner order i p e :=
  ⟨fun h => absurd h he, fun hreaches hfails _ => (hnot hreaches hfails).elim⟩

theorem RenewalRefused.fails {owner : String} {order : RepOrder} {i : RenewalInputs}
    {p : RepPanel} {point : RenewalPoint} (h : ¬i.fails point = false) :
    RenewalRefused owner order i p .databaseError := by
  apply RenewalRefused.other
  · rintro (heq | heq)
    · cases heq
    · cases heq
  · exact fun _ hfails => h (hfails point)

/-- Writing the policy of the plan. -/
theorem wp_applyPlan {owner : String} {order : RepOrder} (hplan : order.snapshot.Sellable)
    (i : RenewalInputs) {p : RepPanel} {sub : Subscription}
    (hsub : p.shop.subscriptions.get? (owner, order.buyer) = some sub)
    (hrep : sub.representativeId = order.representativeId) :
    (applyPlan owner order.representativeId order.snapshot i).wp
      (fun _ t => Reaches owner order p ∧
        Covers order.snapshot order.representativeId p.store ∧
        Admits order.snapshot order.representativeId p.store ∧
        Granted order.snapshot order.representativeId p.store t.store ∧
        t.shop.subscriptions = p.shop.subscriptions)
      (fun e _ => RenewalRefused owner order i p e) p := by
  unfold applyPlan ownerPut
  simp only [Tx.wp_bind, Tx.wp_read, Tx.wp_ofExcept, Tx.wp_require]
  constructor
  · intro role hrole
    constructor
    · intro howner
      constructor
      · intro _ hchecks
        have hname := checkOwnerPut_name hchecks
        unfold inStore
        rw [Tx.wp_within]
        apply Tx.wp_mono (wp_registerPlan howner hplan order.representativeId i.uuid p.store)
        · rintro _ t ⟨hvolume, hcovers, hadmits, hgranted⟩
          have hreaches : Reaches owner order p :=
            ⟨⟨sub, hsub, hrep⟩, by rw [hrole, howner], hchecks, hvolume⟩
          simp only [inShop, RenewalInputs.pass, Tx.wp_bind, Tx.wp_transaction, Tx.wp_within,
            Tx.wp_write, Tx.wp_require]
          constructor
          · intro _
            constructor
            · intro _
              exact ⟨fun _ => ⟨hreaches, hcovers, hadmits, hgranted, trivial⟩, .fails⟩
            · exact .fails
          · exact .fails
        · intro e t hrefused
          constructor
          · intro hblame
            obtain ⟨_, hvolume, hnot⟩ := hrefused.spent hblame
            exact ⟨⟨⟨sub, hsub, hrep⟩, by rw [hrole, howner], hchecks, hvolume⟩, hnot⟩
          · intro hreaches _ huuid
            exact hrefused.regular ⟨hname, hreaches.volume, huuid⟩
      · intro e hchecks
        apply RenewalRefused.other (checkOwnerPut_error hchecks)
        intro hreaches _
        rw [hreaches.checks] at hchecks
        cases hchecks
    · intro howner
      apply RenewalRefused.other
      · rintro (heq | heq)
        · cases heq
        · cases heq
      · intro hreaches _
        rw [hreaches.role] at hrole
        exact howner (Except.ok.inj hrole).symm
  · intro e he
    apply RenewalRefused.other (actorFor_error he)
    intro hreaches _
    rw [hreaches.role] at he
    cases he

/-- The sweep of expired subscriptions moves no end. -/
theorem wp_sweepNow (i : RenewalInputs) {p : RepPanel} (r : Failure → RepPanel → Prop)
    (hr : ∀ point, ¬i.fails point = false → ∀ t, r .databaseError t) :
    (sweepNow i).wp (fun _ t => t.store = p.store ∧
      ∀ key, (t.shop.subscriptions.get? key).map Subscription.expiresAt =
        (p.shop.subscriptions.get? key).map Subscription.expiresAt) r p := by
  unfold sweepNow RenewalInputs.pass
  simp only [Tx.wp_bind, Tx.wp_require, Tx.wp_read]
  refine ⟨fun _ => ?_, fun hfails => hr _ hfails _⟩
  apply Tx.wp_forM ⟨rfl, fun _ => rfl⟩
  rintro row _ t ⟨hstore, hends⟩
  simp only [inShop, suspendTx, Tx.wp_transaction, Tx.wp_within, Tx.wp_bind, Tx.wp_read,
    Tx.wp_write]
  refine ⟨hstore, ?_⟩
  intro key
  rw [← hends key, Table.get?_update]
  by_cases hkey : key = row.1
  · rw [if_pos hkey, Option.map_map]
    congr 1
    funext sub
    dsimp only [Function.comp]
    split <;> rfl
  · rw [if_neg hkey]

theorem renewBot_subscriptions (order : RepOrder) (sub : Subscription) (s : Shop) :
    (renewBot order sub s).subscriptions = s.subscriptions := by
  unfold renewBot
  split
  · split
    · rfl
    · rfl
  · rfl

/-- What a renewal does to the credit and to the subscription. -/
structure Renewed (owner : String) (order : RepOrder) (i : RenewalInputs) (p t : RepPanel) :
    Prop where
  granted : Granted order.snapshot order.representativeId p.store t.store
  ends : ∀ sub, p.shop.subscriptions.get? (owner, order.buyer) = some sub →
    (t.shop.subscriptions.get? (owner, order.buyer)).map Subscription.expiresAt =
      some (max i.now sub.expiresAt + order.snapshot.durationDays.toNat * 86400000)

/-- A renewal. -/
theorem wp_provisionNow {owner orderId : String} {order : RepOrder} (i : RenewalInputs)
    {p : RepPanel} (horder : p.shop.repOrders.get? orderId = some order)
    (howner : order.owner = owner) (hplan : order.snapshot.Sellable) :
    (provisionNow owner orderId i).wp
      (fun _ t => Reaches owner order p ∧
        Covers order.snapshot order.representativeId p.store ∧
        Admits order.snapshot order.representativeId p.store ∧ Renewed owner order i p t)
      (fun e _ => RenewalRefused owner order i p e) p := by
  unfold provisionNow findRepOrder
  have hfound : found ((p.shop.repOrders.get? orderId).filter (·.owner = owner))
      "Representative order not found" = .ok order := by
    rw [horder, Option.filter_eq_some_iff.mpr ⟨rfl, by simpa using howner⟩]
    rfl
  simp only [Tx.wp_bind, Tx.wp_read, Tx.wp_ofExcept, hfound, Except.ok.injEq, forall_eq',
    reduceCtorEq, false_imp_iff, implies_true, and_true]
  constructor
  · intro sub hsub
    obtain ⟨hget, hrep⟩ := Option.filter_eq_some_iff.mp (found_eq_ok hsub)
    have hrep' : sub.representativeId = order.representativeId := by simpa using hrep
    apply Tx.wp_mono (wp_applyPlan hplan i hget hrep')
    · rintro _ t ⟨hreaches, hcovers, hadmits, hgranted, hsubs⟩
      simp only [inShop, extendTx, RenewalInputs.pass, Tx.wp_transaction, Tx.wp_within, Tx.wp_bind,
        Tx.wp_write, Tx.wp_require]
      refine ⟨fun _ => ?_, .fails⟩
      apply Tx.wp_mono (wp_sweepNow i (fun e _ => RenewalRefused owner order i p e)
        fun _ hfails _ => .fails hfails)
      · rintro _ u ⟨hstore, hends⟩
        refine ⟨fun _ => ⟨hreaches, hcovers, hadmits, ?_, ?_⟩, .fails⟩
        · rw [hstore]
          exact hgranted
        · intro sub' hsub'
          rw [hget, Option.some.injEq] at hsub'
          subst hsub'
          rw [hends, Table.get?_update, howner, if_pos rfl, renewBot_subscriptions]
          change ((t.shop.subscriptions.get? (owner, order.buyer)).map _).map _ = _
          rw [hsubs, hget]
          rfl
      · exact fun _ _ h => h
    · exact fun _ _ h => h
  · intro e he
    apply RenewalRefused.other
    · cases hrow : (p.shop.subscriptions.get? (owner, order.buyer)).filter fun sub =>
          sub.representativeId = order.representativeId with
      | none =>
          rw [hrow] at he
          cases he
          exact not_blamesSpending _ (by decide) (by decide)
      | some sub =>
          rw [hrow] at he
          cases he
    · intro hreaches _
      obtain ⟨sub, hsub, hrep⟩ := hreaches.sub
      rw [hsub, Option.filter_eq_some_iff.mpr ⟨rfl, by simpa using hrep⟩] at he
      cases he

/-! ## The whole call -/

/-- The row of an order that was paid. -/
def RepOrder.paidRow (order : RepOrder) : RepOrder :=
  { order with status := .paid }

/-- Taking the money changes neither the policy nor the subscription. -/
structure Taken (orderId : String) (order : RepOrder) (p t : RepPanel) : Prop where
  row : t.shop.repOrders.get? orderId = some order.paidRow
  subscriptions : t.shop.subscriptions = p.shop.subscriptions
  accounts : t.shop.accounts = p.shop.accounts
  store : t.store = p.store
  links : t.links = p.links
  inbounds : t.inbounds = p.inbounds

/-- An order for a renewal that can be paid. -/
structure Payable (owner orderId : String) (telegramId : ℤ) (order : RepOrder) (p : RepPanel) :
    Prop where
  row : p.shop.repOrders.get? orderId = some order
  owned : order.owner = owner
  buyer : order.buyer = telegramId
  renewal : order.isPurchase = false
  status : order.status = .pending ∨ order.status = .paid
  plan : order.snapshot.Sellable
  amount : 0 ≤ order.amountMinor
  funds : p.shop.hasEntry owner .repRenewal ("representative:" ++ orderId) = true ∨
    order.amountMinor ≤ p.shop.balance owner telegramId

/-- The money is taken, if nothing outside of the tables fails. -/
theorem wp_takeMoney {owner orderId : String} {telegramId : ℤ} {order : RepOrder} {p : RepPanel}
    (h : Payable owner orderId telegramId order p) (i : RenewalInputs) :
    (takeMoney owner orderId telegramId order i).wp (fun _ t => Taken orderId order p t)
      (fun _ _ => ¬Smooth i p) p := by
  have hkind : order.debitKind = .repRenewal := by
    unfold RepOrder.debitKind
    rw [h.renewal]
    rfl
  unfold takeMoney payRepTx debitTx demandPolicy RenewalInputs.pass inShop
  rw [hkind]
  simp only [Tx.wp_transaction, Tx.wp_bind, Tx.wp_within, Tx.wp_require, Tx.wp_read]
  have hrow : (p.shop.repOrders.update orderId fun r => { r with status := .paid }).get? orderId =
      some order.paidRow := by
    rw [Table.get?_update, if_pos rfl, h.row]
    rfl
  refine ⟨fun _ => ?_, fun hamount => absurd h.amount hamount⟩
  by_cases hknown : p.shop.hasEntry owner .repRenewal ("representative:" ++ orderId) = true
  · rw [if_pos hknown]
    simp only [Tx.wp_pure, Tx.wp_write]
    constructor
    · exact fun _ => ⟨hrow, rfl, rfl, rfl, rfl, rfl⟩
    · exact fun hfails hsmooth => hfails (hsmooth.fails _)
  · rw [if_neg hknown]
    simp only [insertEntry, Tx.wp_bind, Tx.wp_read, Tx.wp_require, Tx.wp_write, Tx.wp_pure]
    constructor
    · intro _
      constructor
      · intro _
        constructor
        · exact fun _ => ⟨hrow, rfl, rfl, rfl, rfl, rfl⟩
        · exact fun hfails hsmooth => hfails (hsmooth.fails _)
      · intro htaken hsmooth
        apply htaken
        rw [List.all_eq_true]
        exact fun e he => decide_eq_true (hsmooth.entry e he)
    · intro hbalance
      exact absurd (h.funds.resolve_left hknown) hbalance

/-- The checks of a renewal read nothing that taking the money changes. -/
theorem Taken.reaches_iff {owner orderId : String} {order : RepOrder} {p t : RepPanel}
    (h : Taken orderId order p t) : Reaches owner order.paidRow t ↔ Reaches owner order p := by
  have hclients : ∀ rep, t.clientsOf rep = p.clientsOf rep := by
    intro rep
    unfold RepPanel.clientsOf
    rw [h.store, h.links]
  have hchecks : ∀ rep plan prefixText,
      checkOwnerPut rep plan prefixText t = checkOwnerPut rep plan prefixText p := by
    intro rep plan prefixText
    unfold checkOwnerPut
    rw [hclients, h.inbounds]
  have hrole : t.shop.actorFor owner = p.shop.actorFor owner := by
    unfold Shop.actorFor
    rw [h.accounts]
  constructor
  · rintro ⟨hsub, hactor, hpassed, hvolume⟩
    rw [h.subscriptions] at hsub
    rw [hrole] at hactor
    rw [hchecks] at hpassed
    rw [h.store] at hvolume
    exact ⟨hsub, hactor, hpassed, hvolume⟩
  · rintro ⟨hsub, hactor, hpassed, hvolume⟩
    rw [← h.subscriptions] at hsub
    rw [← hrole] at hactor
    rw [← hchecks] at hpassed
    rw [← h.store] at hvolume
    exact ⟨hsub, hactor, hpassed, hvolume⟩

/-- The renewal takes no credit away: what was spent does not make it fail, and if it succeeds, the
units that are left are at least those before and at least those of the plan, and the subscription
is extended. -/
structure KeepsCredit (owner orderId : String) (telegramId : ℤ) (order : RepOrder)
    (i : RenewalInputs) (p : RepPanel) : Prop where
  unblamed : ∀ paid e t, takeMoney owner orderId telegramId order i p = (.ok (), paid) →
    provisionNow owner orderId i paid = (.error e, t) → ¬BlamesSpending e
  granted : ∀ t, payRenewalNow owner orderId telegramId i p = (.ok (), t) →
    p.store.unspent order.representativeId ≤ t.store.unspent order.representativeId ∧
    order.snapshot.credit.unlimitedCredit ≤ t.store.unspent order.representativeId ∧
    ∀ sub, p.shop.subscriptions.get? (owner, telegramId) = some sub →
      (t.shop.subscriptions.get? (owner, telegramId)).map Subscription.expiresAt =
        some (max i.now sub.expiresAt + order.snapshot.durationDays.toNat * 86400000)

/-- The plan covers what was spent and sold; and if it admits the clients there are, nothing was
spent before and the plan does not lower the credit. -/
def Earns (owner : String) (order : RepOrder) (p : RepPanel) : Prop :=
  Reaches owner order p →
    Covers order.snapshot order.representativeId p.store ∧
      (Admits order.snapshot order.representativeId p.store →
        p.store.spent order.representativeId ≤ 0 ∧
          unlimitedCreditOf p.store order.representativeId ≤ order.snapshot.credit.unlimitedCredit)

/-- A call for an order that can be paid takes the money and carries the renewal out. -/
theorem payRenewalNow_ok {owner orderId : String} {telegramId : ℤ} {order : RepOrder}
    {i : RenewalInputs} {p t : RepPanel} (h : Payable owner orderId telegramId order p) :
    payRenewalNow owner orderId telegramId i p = (.ok (), t) ↔
      ∃ paid, takeMoney owner orderId telegramId order i p = (.ok (), paid) ∧
        provisionNow owner orderId i paid = (.ok (), t) := by
  have hfound : findRepOrder orderId owner p = (.ok order, p) := by
    unfold findRepOrder
    rw [Tx.read_bind, h.row, Option.filter_eq_some_iff.mpr ⟨rfl, by simpa using h.owned⟩]
    rfl
  have hopen : order.status ∉ [RepOrderStatus.provisioned, .renewed] := by
    rcases h.status with hs | hs
    · rw [hs]
      decide
    · rw [hs]
      decide
  have hrefunded : order.status ≠ .failedRefunded := by
    rcases h.status with hs | hs
    · rw [hs]
      decide
    · rw [hs]
      decide
  have hhandle : ∀ paid, Tx.handle (provisionNow owner orderId i)
      (fun e => some (giveBack owner orderId telegramId order i e)) paid = (.ok (), t) ↔
        provisionNow owner orderId i paid = (.ok (), t) := by
    intro paid
    unfold Tx.handle
    rcases hresult : provisionNow owner orderId i paid with ⟨e | u, v⟩
    · constructor
      · intro hback
        simp only [giveBack, Tx.bind_ok_iff, Tx.raise_ok_iff, and_false, exists_false] at hback
      · intro hback
        cases hback
    · exact Iff.rfl
  unfold payRenewalNow
  rw [Tx.bind_ok_iff]
  constructor
  · rintro ⟨order', p', hread, hrest⟩
    rw [hfound, Prod.mk.injEq, Except.ok.injEq] at hread
    obtain ⟨rfl, rfl⟩ := hread
    rw [Tx.require_bind_iff, if_neg hopen, Tx.require_bind_iff, Tx.bind_ok_iff] at hrest
    obtain ⟨_, _, _, paid, htaken, hdone⟩ := hrest
    exact ⟨paid, htaken, (hhandle paid).mp hdone⟩
  · rintro ⟨paid, htaken, hdone⟩
    refine ⟨order, p, hfound, ?_⟩
    rw [Tx.require_bind_iff, if_neg hopen, Tx.require_bind_iff, Tx.bind_ok_iff]
    exact ⟨h.buyer, hrefunded, (), paid, htaken, (hhandle paid).mpr hdone⟩

/-- A renewal keeps the credit, with any inputs, if the plan covers what was spent and sold, and
nothing was spent before, and the plan does not lower the credit; and if nothing else goes wrong,
only then. -/
theorem renewal_keeps_credit_iff {owner orderId : String} {telegramId : ℤ} {order : RepOrder}
    {p : RepPanel} (h : Payable owner orderId telegramId order p) (i : RenewalInputs) :
    (Earns owner order p → KeepsCredit owner orderId telegramId order i p) ∧
      (Smooth i p → KeepsCredit owner orderId telegramId order i p → Earns owner order p) := by
  have hrenewal : ∀ paid, Taken orderId order p paid →
      (provisionNow owner orderId i).wp
        (fun _ t => Reaches owner order p ∧
          Covers order.snapshot order.representativeId p.store ∧
          Admits order.snapshot order.representativeId p.store ∧
          Renewed owner order.paidRow i paid t)
        (fun e _ => RenewalRefused owner order.paidRow i paid e) paid := by
    intro paid htaken
    apply Tx.wp_mono (wp_provisionNow i htaken.row h.owned h.plan)
    · rintro _ t ⟨hreaches, hcovers, hadmits, hrenewed⟩
      rw [htaken.store] at hcovers hadmits
      exact ⟨htaken.reaches_iff.mp hreaches, hcovers, hadmits, hrenewed⟩
    · exact fun _ _ hrefused => hrefused
  constructor
  · intro hearns
    constructor
    · intro paid e t htake hprovision hblame
      have htaken := Tx.wp_ok (wp_takeMoney h i) htake
      obtain ⟨hreaches, hnot⟩ := (Tx.wp_error (hrenewal paid htaken) hprovision).spent hblame
      rw [htaken.store] at hnot
      exact hnot (hearns (htaken.reaches_iff.mp hreaches)).1
    · intro t hpay
      obtain ⟨paid, htake, hprovision⟩ := (payRenewalNow_ok h).mp hpay
      have htaken := Tx.wp_ok (wp_takeMoney h i) htake
      obtain ⟨hreaches, _, hadmits, hrenewed⟩ := Tx.wp_ok (hrenewal paid htaken) hprovision
      obtain ⟨hspent, hcredit⟩ := (hearns hreaches).2 hadmits
      have hunspent := hrenewed.granted.unspent
      rw [htaken.store] at hunspent
      have hbefore := unspent_eq p.store order.representativeId
      have hplan : order.paidRow.snapshot = order.snapshot := rfl
      have hrep : order.paidRow.representativeId = order.representativeId := rfl
      rw [hplan, hrep] at hunspent
      refine ⟨by omega, by omega, ?_⟩
      intro sub hsub
      have hends := hrenewed.ends sub
      rw [htaken.subscriptions] at hends
      have hbuyer : order.paidRow.buyer = telegramId := h.buyer
      rw [hbuyer] at hends
      exact hends hsub
  · intro hsmooth hkeeps hreaches
    have htake := wp_takeMoney h i
    rcases hmoney : takeMoney owner orderId telegramId order i p with ⟨e | u, paid⟩
    · exact absurd hsmooth (Tx.wp_error htake hmoney)
    · have htaken := Tx.wp_ok htake hmoney
      have huuid : paid.store.resourceCreditLedger.get? ("unlimited-grant:" ++ i.uuid) = none := by
        rw [htaken.store]
        exact hsmooth.uuid
      rcases hprovision : provisionNow owner orderId i paid with ⟨e | v, t⟩
      · have hrefused := Tx.wp_error (hrenewal paid htaken) hprovision
        have hcause := hrefused.smooth (htaken.reaches_iff.mpr hreaches) hsmooth.fails huuid
        rw [htaken.store] at hcause
        rcases hcause with hblame | ⟨hcovers, hadmits⟩
        · exact absurd hblame (hkeeps.unblamed paid e t hmoney hprovision)
        · exact ⟨hcovers, fun h => absurd h hadmits⟩
      · obtain ⟨_, hcovers, _, hrenewed⟩ := Tx.wp_ok (hrenewal paid htaken) hprovision
        obtain ⟨hkept, hgranted, _⟩ :=
          hkeeps.granted t ((payRenewalNow_ok h).mpr ⟨paid, hmoney, hprovision⟩)
        have hunspent := hrenewed.granted.unspent
        rw [htaken.store] at hunspent
        have hbefore := unspent_eq p.store order.representativeId
        have hplan : order.paidRow.snapshot = order.snapshot := rfl
        have hrep : order.paidRow.representativeId = order.representativeId := rfl
        rw [hplan, hrep] at hunspent
        exact ⟨hcovers, fun _ => ⟨by omega, by omega⟩⟩

/-! ### A representative who has sold everything -/

/-- A plan with ten units. -/
def tenUnits : PlanSnapshot :=
  ⟨"plan", ⟨1000, 10, 0⟩, ⟨"Plan", [1], "rep_", 0, 0⟩, 30, true⟩

/-- A renewal of the plan. -/
def tenMore : RepOrder :=
  ⟨"shop", 7, false, 5000, .pending, tenUnits, "rep7", false⟩

/-- The representative has sold all units of the first period. -/
def soldOut : RepPanel where
  shop :=
    { Shop.empty with
      wallets := Table.empty.insert ("shop", 7) 5000
      accounts := (Table.empty.insert "shop" ⟨.owner, false⟩).insert "rep7" ⟨.reseller, false⟩
      repOrders := Table.empty.insert "order" tenMore
      subscriptions := Table.empty.insert ("shop", 7)
        ⟨"rep7", "plan", true, 0, 2592000000, 0, true, false, "first"⟩ }
  store :=
    { Store.fresh (fun id => if id = "rep7" then some .reseller else none) with
      owners := Table.empty.insert "rep7" ⟨1000, 10, 10, 0, false, false⟩ }
  links := .empty
  inbounds := [1]

/-- Nothing goes wrong. -/
def fairWeather : RenewalInputs :=
  ⟨1000, 1000, "entry", "refund", "grant", fun _ => false⟩

/-- The renewal is paid, and the representative has no unit to sell. -/
theorem renewal_without_credit : ¬ ∀ (owner orderId : String) (telegramId : ℤ) (order : RepOrder)
    (p : RepPanel) (i : RenewalInputs), Payable owner orderId telegramId order p → Smooth i p →
      KeepsCredit owner orderId telegramId order i p := by
  intro h
  have hpayable : Payable "shop" "order" 7 tenMore soldOut := by
    constructor <;> first | decide +kernel | exact ⟨by decide, by decide, by decide⟩
  have hsmooth : Smooth fairWeather soldOut := by
    constructor
    · exact fun _ => rfl
    · decide +kernel
    · intro e he
      cases he
  have hpaid : (payRenewalNow "shop" "order" 7 fairWeather soldOut).1 = .ok () := by
    decide +kernel
  have hleft : (payRenewalNow "shop" "order" 7 fairWeather soldOut).2.store.unspent "rep7" = 0 := by
    decide +kernel
  have hkeeps := h "shop" "order" 7 tenMore soldOut fairWeather hpayable hsmooth
  generalize hcall : payRenewalNow "shop" "order" 7 fairWeather soldOut = r at hpaid hleft
  have hgranted : (10 : ℤ) ≤ r.2.store.unspent "rep7" :=
    (hkeeps.granted r.2 (hcall.trans (Prod.ext hpaid rfl))).2.1
  rw [hleft] at hgranted
  omega

/-- A representative who has sold nothing yet. -/
def unsold : RepPanel :=
  { soldOut with
    store :=
      { soldOut.store with owners := Table.empty.insert "rep7" ⟨1000, 10, 0, 0, false, false⟩ } }

/-- A representative who has sold nothing yet keeps the ten units. -/
theorem renewal_keeps_credit_unsold :
    KeepsCredit "shop" "order" 7 tenMore fairWeather unsold := by
  have hpayable : Payable "shop" "order" 7 tenMore unsold := by
    constructor <;> first | decide +kernel | exact ⟨by decide, by decide, by decide⟩
  apply (renewal_keeps_credit_iff hpayable fairWeather).1
  intro _
  constructor
  · intro _
    decide +kernel
  · intro _
    decide +kernel

end Commerce
end DarkXray
