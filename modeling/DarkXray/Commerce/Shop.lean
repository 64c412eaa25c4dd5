import DarkXray.Library.Tables
import DarkXray.Library.Threads
import DarkXray.Policy.Basics

/-!
# The shop

The tables of the commerce modules and the steps that its methods are made of: the
customers' wallets with their ledger, the orders with their payments, the clients that
orders have produced, and the representatives.  A method is a script of transactions;
the clock, new random ids and whatever raises are inputs of each of them.  Times are in
milliseconds.

Main results:

- Theorems {lit}`creditTx_spec` and {lit}`debitTx_spec`: what a credit and a debit do to
  the wallets and their ledger.
- Theorem {lit}`wp_commit`: the rule of transactions that may fail to commit.
-/

namespace DarkXray
namespace Commerce

open Library Policy

/-! ## Tables -/

/-- Kinds of ledger entries. -/
inductive LedgerKind where
  | topup
  | purchase
  | renewal
  | referral
  | repPurchase
  | repRenewal
  | repRefund
deriving DecidableEq, Repr

/-- A row of {lit}`customer_wallet_ledger`. -/
structure LedgerEntry where
  id : String
  owner : String
  telegramId : ℤ
  deltaMinor : ℤ
  kind : LedgerKind
  reference : String
deriving DecidableEq, Repr

/-- Statuses of top-ups. -/
inductive TopupStatus where
  | awaitingReceipt
  | review
  | approved
  | rejected
deriving DecidableEq, Repr

/-- A row of {lit}`customer_topups`; {lit}`rowId` is its {lit}`rowid`. -/
structure Topup where
  rowId : ℕ
  owner : String
  telegramId : ℤ
  amountMinor : ℤ
  status : TopupStatus
  receiptRef : String
  createdAt : ℕ
deriving DecidableEq, Repr

/-- A row of {lit}`customer_referrals`. -/
structure Referral where
  referrer : ℤ
  qualifiedAt : ℕ
  rewardMinor : ℤ
deriving DecidableEq, Repr

/-- Statuses of orders. -/
inductive OrderStatus where
  | pending
  | awaitingPayment
  | paymentReview
  | paymentRejected
  | cancelled
  | paid
  | provisioned
  | provisionedWaitingActivation
  | renewed
deriving DecidableEq, Repr

/-- Types of orders. -/
inductive OrderType where
  | purchase
  | renewal
deriving DecidableEq, Repr

/-- A row of {lit}`commerce_orders`; {lit}`firstConnection` is its activation mode. -/
structure Order where
  owner : String
  buyer : ℤ
  amountMinor : ℤ
  currency : String
  status : OrderStatus
  gatewayId : String
  paymentRef : String
  createdAt : ℕ
  updatedAt : ℕ
  clientId : String
  fulfillmentError : String
  volumeBytes : ℤ
  durationDays : ℤ
  ipLimit : ℤ
  hwidLimit : ℤ
  inboundIds : List ℤ
  firstConnection : Bool
  orderType : OrderType
  targetClientId : String
  renewalTargetExpiry : ℤ
  activationStartedAt : ℕ
  activationExpiresAt : ℕ
deriving DecidableEq, Repr

/-- Statuses of payments. -/
inductive PaymentStatus where
  | pending
  | review
  | paid
  | rejected
  | failed
  | expired
deriving DecidableEq, Repr

/-- A row of {lit}`commerce_payments`; {lit}`rowId` is its {lit}`rowid`. -/
structure Payment where
  rowId : ℕ
  orderId : String
  owner : String
  gatewayId : String
  amountMinor : ℤ
  status : PaymentStatus
  externalRef : String
  createdAt : ℕ
deriving DecidableEq, Repr

/-- A client of the panel: its row in {lit}`clients` and the part of its desired state
that the shop writes. -/
structure Managed where
  owner : String
  comment : String
  telegramId : ℤ
  expiryTime : ℤ
  totalBytes : ℤ
  limitIp : ℤ
  limitHwid : ℤ
deriving DecidableEq, Repr

/-- A row of {lit}`commerce_gateway_events`. -/
structure GatewayEvent where
  processed : Bool
  orderId : String
deriving DecidableEq, Repr

/-- A row of {lit}`api_admins`. -/
structure Account where
  role : Role
  disabled : Bool
deriving DecidableEq, Repr

/-- The row of a representative in {lit}`owners`. -/
structure OwnerCredit where
  volumeCreditBytes : ℤ
  unlimitedCredit : ℤ
  maxClients : ℤ
deriving DecidableEq, Repr

/-- A row of {lit}`owner_profiles`. -/
structure OwnerProfile where
  name : String
  allowed : List ℤ
  prefixText : String
  maxClientIps : ℤ
  maxClientHwid : ℤ
deriving DecidableEq, Repr

/-- The snapshot of a representative plan in an order. -/
structure PlanSnapshot where
  planId : String
  credit : OwnerCredit
  profile : OwnerProfile
  durationDays : ℤ
  botAllowed : Bool
deriving DecidableEq, Repr

/-- Statuses of representative orders. -/
inductive RepOrderStatus where
  | pending
  | paid
  | provisioned
  | renewed
  | failedRefunded
deriving DecidableEq, Repr

/-- A row of {lit}`representative_market_orders`. -/
structure RepOrder where
  owner : String
  buyer : ℤ
  isPurchase : Bool
  amountMinor : ℤ
  status : RepOrderStatus
  snapshot : PlanSnapshot
  representativeId : String
  hasPassword : Bool
deriving DecidableEq, Repr

/-- A row of {lit}`representative_subscriptions`. -/
structure Subscription where
  representativeId : String
  planId : String
  active : Bool
  startedAt : ℕ
  expiresAt : ℕ
  suspendedAt : ℕ
  botAllowed : Bool
  botWasEnabled : Bool
  lastOrderId : String
deriving DecidableEq, Repr

/-- The tables of the shop. -/
structure Shop where
  wallets : Table (String × ℤ) ℤ
  ledger : List LedgerEntry
  topups : Table String Topup
  referralRewards : Table String ℤ
  referrals : Table (String × ℤ) Referral
  orders : Table String Order
  payments : Table String Payment
  gateways : Table (String × String) Bool
  gatewayEvents : Table (String × String × String) GatewayEvent
  managed : Table String Managed
  accounts : Table String Account
  credits : Table String OwnerCredit
  profiles : Table String OwnerProfile
  bots : Table String Bool
  repOrders : Table String RepOrder
  subscriptions : Table (String × ℤ) Subscription

/-- A shop in which nothing has happened yet. -/
def Shop.empty : Shop where
  wallets := .empty
  ledger := []
  topups := .empty
  referralRewards := .empty
  referrals := .empty
  orders := .empty
  payments := .empty
  gateways := .empty
  gatewayEvents := .empty
  managed := .empty
  accounts := .empty
  credits := .empty
  profiles := .empty
  bots := .empty
  repOrders := .empty
  subscriptions := .empty

/-! ## Scripts -/

/-- The inputs of a step: the clock, a new random id, what raises, which one of several
equally new rows is the newest, and an answer from outside of the shop. -/
structure Moment where
  now : ℕ
  fresh : String
  raised : Option Failure
  pick : ℕ
  answer : Bool
deriving DecidableEq, Repr

/-- Parts of the payment of a representative order. -/
inductive RepPart where
  | debit
  | credit
  | profile
  | reconcile
  | account
  | delivery
  /-- The order has been delivered. -/
  | finish
  | cleanup
deriving DecidableEq, Repr

/-- Steps that the results about the shop distinguish. -/
inductive ShopAction where
  | plain
  /-- A status of a top-up is written that was read in another transaction. -/
  | topupStatus (topup : String)
  /-- A top-up is approved. -/
  | approve (owner : String) (rowId : ℕ)
  /-- A referral is rewarded. -/
  | reward (owner : String) (telegramId amount : ℤ)
  /-- An amount is refunded. -/
  | refund (owner : String) (telegramId amount : ℤ) (reference : String)
  /-- An event of a gateway is recorded. -/
  | event
  /-- A step of {lit}`confirm_payment` up to the transaction that pays the order. -/
  | confirm
  /-- An event that could not be applied is removed. -/
  | drop
  /-- A part of the payment of a representative order. -/
  | rep (part : RepPart)
deriving DecidableEq, Repr

/-- Procedures on the shop. -/
abbrev ShopTx (α : Type) : Type :=
  Tx Shop Failure α

/-- Methods of the shop. -/
abbrev ShopScript (α : Type) : Type 1 :=
  Script Moment ShopAction Shop Failure α

/-- A transaction; it may fail to commit. -/
def commit {α : Type} (body : Moment → ShopTx α) (o : Moment) : ShopTx α :=
  Tx.transaction do
    let a ← body o
    o.raised.elim (pure a) Tx.raise

/-- A transaction that no result needs to name. -/
def step {α : Type} (body : Moment → ShopTx α) : ShopScript α :=
  Script.perform .plain (commit body)

/-- Read the tables, or raise; the step has a name. -/
def lookAs {α : Type} (name : ShopAction) (f : Moment → Shop → Except Failure α) :
    ShopScript α :=
  Script.perform name (commit fun o => do Tx.ofExcept (← Tx.read (f o)))

/-- Read the tables, or raise. -/
def look {α : Type} (f : Moment → Shop → Except Failure α) : ShopScript α :=
  lookAs .plain f

/-- Something outside of the shop is called, in a step with a name; it may raise. -/
def outsideAs (name : ShopAction) : ShopScript Bool :=
  Script.perform name (commit fun o => pure o.answer)

/-- Something outside of the shop is called; it may raise. -/
def outside : ShopScript Bool :=
  outsideAs .plain

/-- Raise {lit}`PolicyError` unless a condition holds. -/
def insist (p : Prop) [Decidable p] (message : String) : ShopScript Unit :=
  Script.ofExcept (ensure p (.policyError message))

/-- The value of a row, or {lit}`PolicyError`. -/
def found {α : Type} (row : Option α) (message : String) : Except Failure α :=
  row.elim (.error (.policyError message)) .ok

/-! ## Wallets -/

/-- A sum that is too large for a stored integer becomes a floating-point number with a
mantissa of 53 bits. -/
def floatSum (n : ℤ) : ℤ :=
  let unit : ℤ := ((1 : ℕ) <<< (n.toNat.log2 - 52) : ℕ)
  let down := n / unit
  let rest := n % unit
  if rest * 2 < unit ∨ rest * 2 = unit ∧ down % 2 = 0 then down * unit else (down + 1) * unit

/-- SQLite's sum of two integers. -/
def addMinor (balance amount : ℤ) : ℤ :=
  if balance + amount ≤ maxInt then balance + amount else floatSum (balance + amount)

/-- There is an entry for a reference. -/
def Shop.hasEntry (s : Shop) (owner : String) (kind : LedgerKind) (reference : String) : Bool :=
  s.ledger.any fun e => e.owner = owner && e.kind = kind && e.reference = reference

/-- The balance of a wallet. -/
def Shop.balance (s : Shop) (owner : String) (telegramId : ℤ) : ℤ :=
  (s.wallets.get? (owner, telegramId)).getD 0

/-- Insert a ledger entry; its id is unique. -/
def insertEntry (e : LedgerEntry) : ShopTx Unit := do
  let ledger ← Tx.read Shop.ledger
  Tx.require (ledger.all (·.id ≠ e.id) = true) .integrityError
  Tx.write fun s => { s with ledger := s.ledger ++ [e] }

/-- {lit}`_credit_tx`. -/
def creditTx (owner : String) (telegramId amount : ℤ) (kind : LedgerKind) (reference : String)
    (o : Moment) : ShopTx Bool := do
  demandPolicy (0 < amount) "Wallet credit must be positive"
  let known ← Tx.read fun s => s.hasEntry owner kind reference
  if known then return false
  else do
    Tx.write fun s => { s with
      wallets := s.wallets.upsert (owner, telegramId) amount fun b => addMinor b amount }
    insertEntry ⟨o.fresh, owner, telegramId, amount, kind, reference⟩
    return true

/-- {lit}`_debit_tx`. -/
def debitTx (owner : String) (telegramId amount : ℤ) (kind : LedgerKind) (reference : String)
    (o : Moment) : ShopTx Bool := do
  demandPolicy (0 ≤ amount) "Wallet debit is invalid"
  let known ← Tx.read fun s => s.hasEntry owner kind reference
  if known then return false
  else do
    let balance ← Tx.read fun s => s.balance owner telegramId
    demandPolicy (amount ≤ balance) "Insufficient wallet balance"
    Tx.write fun s => { s with
      wallets := s.wallets.upsert (owner, telegramId) (0 - amount) fun b => b - amount }
    insertEntry ⟨o.fresh, owner, telegramId, -amount, kind, reference⟩
    return true

/-! ## Accounts and credit -/

/-- {lit}`actor_for`. -/
def Shop.actorFor (s : Shop) (owner : String) : Except Failure Role :=
  match s.accounts.get? owner with
  | some ⟨.owner, false⟩ => .ok .owner
  | some ⟨.reseller, false⟩ => .ok .reseller
  | some ⟨.readonly, false⟩ => .error (.policyError "Commerce owner role is unsupported")
  | _ => .error (.policyError "Commerce owner account is unavailable or disabled")

/-- {lit}`unlimited_plan_allowed`. -/
def Shop.unlimitedPlanAllowed (s : Shop) (owner : String) : Except Failure Bool := do
  let role ← s.actorFor owner
  return role ≠ .reseller || (s.credits.get? owner).any (0 < ·.unlimitedCredit)

/-- {lit}`require_plan_credit`. -/
def requirePlanCredit (owner : String) (volumeBytes : ℤ) : ShopTx Unit := do
  let s ← Tx.read id
  if volumeBytes = 0 then do
    let allowed ← Tx.ofExcept (s.unlimitedPlanAllowed owner)
    demandPolicy (allowed = true)
      "سهمیه سرویس نامحدود ندارید؛ از مدیر اصلی سهمیه بگیرید یا پلن حجمی بسازید."
  else pure ()

/-! ## The rules of the steps -/

section Rules

/-- A row that is found. -/
theorem found_eq_ok {α : Type} {row : Option α} {message : String} {a : α}
    (h : found row message = .ok a) : row = some a := by
  cases row with
  | none => cases h
  | some a' => simpa [found] using h

variable {α : Type} {q : α → Shop → Prop} {r : Failure → Shop → Prop} {s : Shop}

/-- A transaction that raises, or fails to commit, leaves everything as it was. -/
theorem wp_commit {body : Moment → ShopTx α} {o : Moment} :
    (commit body o).wp q r s ↔
      (body o).wp (fun a t => (o.raised = none → q a t) ∧ ∀ e, o.raised = some e → r e s)
        (fun e _ => r e s) s := by
  unfold commit
  rw [Tx.wp_transaction, Tx.wp_bind]
  cases o.raised with
  | none => simp
  | some e => simp

/-- A sum that fits is the sum of the integers. -/
theorem addMinor_of_le {balance amount : ℤ} (h : balance + amount ≤ maxInt) :
    addMinor balance amount = balance + amount :=
  if_pos h

/-- A credit is entered once for a reference. -/
theorem creditTx_spec {owner reference : String} {telegramId amount : ℤ} {kind : LedgerKind}
    {o : Moment} {q : Bool → Shop → Prop}
    (hknown : 0 < amount → s.hasEntry owner kind reference = true → q false s)
    (hnew : 0 < amount → s.hasEntry owner kind reference = false →
      (∀ e ∈ s.ledger, e.id ≠ o.fresh) →
      q true { s with
        wallets := s.wallets.upsert (owner, telegramId) amount fun b => addMinor b amount
        ledger := s.ledger ++ [⟨o.fresh, owner, telegramId, amount, kind, reference⟩] })
    (hr : ∀ e t, r e t) : (creditTx owner telegramId amount kind reference o).wp q r s := by
  simp only [creditTx, demandPolicy, Tx.wp_bind, Tx.wp_require, Tx.wp_read]
  refine ⟨fun hamount => ?_, fun _ => hr _ _⟩
  split
  · rename_i hentry
    exact hknown hamount hentry
  · rename_i hentry
    simp only [insertEntry, Tx.wp_bind, Tx.wp_write, Tx.wp_read, Tx.wp_require]
    refine ⟨fun hfresh => ?_, fun _ => hr _ _⟩
    exact hnew hamount (by simpa using hentry) (by simpa using hfresh)

/-- A debit is entered once for a reference, and never without the balance. -/
theorem debitTx_spec {owner reference : String} {telegramId amount : ℤ} {kind : LedgerKind}
    {o : Moment} {q : Bool → Shop → Prop}
    (hknown : 0 ≤ amount → s.hasEntry owner kind reference = true → q false s)
    (hnew : 0 ≤ amount → s.hasEntry owner kind reference = false →
      (∀ e ∈ s.ledger, e.id ≠ o.fresh) → amount ≤ s.balance owner telegramId →
      q true { s with
        wallets := s.wallets.upsert (owner, telegramId) (0 - amount) fun b => b - amount
        ledger := s.ledger ++ [⟨o.fresh, owner, telegramId, -amount, kind, reference⟩] })
    (hr : ∀ e t, r e t) : (debitTx owner telegramId amount kind reference o).wp q r s := by
  simp only [debitTx, demandPolicy, Tx.wp_bind, Tx.wp_require, Tx.wp_read]
  refine ⟨fun hamount => ?_, fun _ => hr _ _⟩
  split
  · rename_i hentry
    exact hknown hamount hentry
  · rename_i hentry
    simp only [insertEntry, Tx.wp_bind, Tx.wp_write, Tx.wp_read, Tx.wp_require]
    refine ⟨fun hbalance => ⟨fun hfresh => ?_, fun _ => hr _ _⟩, fun _ => hr _ _⟩
    exact hnew hamount (by simpa using hentry) (by simpa using hfresh) hbalance

/-- Checks of the plan credit change nothing. -/
theorem wp_requirePlanCredit {owner : String} {volumeBytes : ℤ} {q : Unit → Shop → Prop}
    (hq : q () s) (hr : ∀ e, r e s) : (requirePlanCredit owner volumeBytes).wp q r s := by
  simp only [requirePlanCredit, Tx.wp_bind, Tx.wp_read, id_eq]
  split
  · simp only [demandPolicy, Tx.wp_bind, Tx.wp_ofExcept, Tx.wp_require]
    exact ⟨fun _ _ => ⟨fun _ => hq, fun _ => hr _⟩, fun _ _ => hr _⟩
  · exact hq

end Rules

/-! ## Threads of the shop -/

section Threads

variable {α : Type} {d : Discipline Moment ShopAction Shop}

/-- A transaction is steady if its body is; if it raises, nothing has happened. -/
theorem steady_commit {name : ShopAction} {body : Moment → ShopTx α}
    (h : ∀ o s, d.inv s → d.ok name o s →
      (body o).wp (fun _ t => d.inv t ∧ d.step s t) (fun _ _ => True) s) :
    (Script.perform name (commit body)).Steady d := by
  apply Script.Steady.perform
  intro o s hs hok
  rw [wp_commit]
  apply Tx.wp_mono (h o s hs hok)
  · exact fun _ _ ht => ⟨fun _ => ht, fun _ _ => ⟨hs, d.refl s⟩⟩
  · exact fun _ _ _ => ⟨hs, d.refl s⟩

/-- A step is steady if its body keeps the discipline. -/
theorem steady_step {body : Moment → ShopTx α}
    (h : ∀ o s, d.inv s → (body o).wp (fun _ t => d.inv t ∧ d.step s t) (fun _ _ => True) s) :
    (step body).Steady d :=
  steady_commit fun o s hs _ => h o s hs

/-- Reading is steady, whatever the name of the step. -/
theorem steady_lookAs {name : ShopAction} {f : Moment → Shop → Except Failure α} :
    (lookAs name f).Steady d := by
  apply steady_commit
  intro o s hs _
  simp only [Tx.wp_bind, Tx.wp_read, Tx.wp_ofExcept]
  exact ⟨fun _ _ => ⟨hs, d.refl s⟩, fun _ _ => trivial⟩

theorem steady_look {f : Moment → Shop → Except Failure α} : (look f).Steady d :=
  steady_lookAs

theorem steady_outsideAs {name : ShopAction} : (outsideAs name).Steady d :=
  steady_commit fun _ s hs _ => ⟨hs, d.refl s⟩

theorem steady_outside : outside.Steady d :=
  steady_outsideAs

theorem steady_insist {p : Prop} [Decidable p] {message : String} :
    (insist p message).Steady d :=
  .ofExcept

end Threads

end Commerce
end DarkXray
