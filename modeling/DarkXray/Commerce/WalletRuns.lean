import Mathlib.Algebra.Ring.Int.Defs
import DarkXray.Commerce.Checkout
import DarkXray.Commerce.Marketplace

/-!
# Conservation of the wallets

The balances, the ledger and the top-ups make up the books of the shop.  Every
transaction of the wallet methods keeps the books, with two exceptions: the status of a
top-up is read and written in two transactions, and a sum that is too large for a stored
integer is rounded.

Main results:

- Theorems {lit}`Accounts.credit` and {lit}`Accounts.debit`: what an entry does to the
  accounts.
- Theorem {lit}`steady_script`: the wallet methods keep the books, transaction by
  transaction.
- Theorem {lit}`wallet_conservation`: the books are kept over every interleaving that
  avoids the two exceptions.
-/

namespace DarkXray
namespace Commerce

open Library Policy

/-! ## The books -/

/-- The sum of the entries of a wallet. -/
def ledgerSum (ledger : List LedgerEntry) (owner : String) (telegramId : ℤ) : ℤ :=
  ((ledger.filter fun e => e.owner = owner && e.telegramId = telegramId).map
    LedgerEntry.deltaMinor).sum

/-- The entries of a reference. -/
def entriesOf (ledger : List LedgerEntry) (owner : String) (kind : LedgerKind)
    (reference : String) : List LedgerEntry :=
  ledger.filter fun e => e.owner = owner && e.kind = kind && e.reference = reference

/-- Balances are sums of entries and never negative, and no reference occurs twice. -/
structure Accounts (wallets : Table (String × ℤ) ℤ) (ledger : List LedgerEntry) : Prop where
  balance : ∀ owner telegramId,
    (wallets.get? (owner, telegramId)).getD 0 = ledgerSum ledger owner telegramId
  nonneg : ∀ owner telegramId, 0 ≤ ledgerSum ledger owner telegramId
  once : ∀ owner kind reference, (entriesOf ledger owner kind reference).length ≤ 1

/-- The entry that credits a top-up. -/
def Credits (topup : String) (t : Topup) (e : LedgerEntry) : Prop :=
  e.owner = t.owner ∧ e.telegramId = t.telegramId ∧ e.kind = .topup ∧ e.reference = topup ∧
    e.deltaMinor = t.amountMinor

/-- The approved top-ups, and no others, are credited. -/
structure Settled (ledger : List LedgerEntry) (topups : Table String Topup) : Prop where
  approved : ∀ e ∈ ledger, e.kind = .topup →
    ∃ t, topups.get? e.reference = some t ∧ t.owner = e.owner ∧ t.status = .approved
  credited : ∀ topup t, topups.get? topup = some t → t.status = .approved →
    ∃ e ∈ ledger, Credits topup t e

/-- The books of a shop are in order. -/
structure Shop.Sound (s : Shop) : Prop where
  accounts : Accounts s.wallets s.ledger
  settled : Settled s.ledger s.topups

section Entries

variable {wallets : Table (String × ℤ) ℤ} {ledger : List LedgerEntry}
  {topups : Table String Topup} {e : LedgerEntry}

/-- An entry counts for its owner and customer. -/
@[simp]
theorem ledgerSum_append (owner : String) (telegramId : ℤ) :
    ledgerSum (ledger ++ [e]) owner telegramId = ledgerSum ledger owner telegramId +
      if e.owner = owner ∧ e.telegramId = telegramId then e.deltaMinor else 0 := by
  by_cases h : e.owner = owner ∧ e.telegramId = telegramId
  · simp [ledgerSum, List.filter_append, h]
  · have hskip : (decide (e.owner = owner) && decide (e.telegramId = telegramId)) = false := by
      simpa using h
    simp [ledgerSum, List.filter_append, hskip, h]

/-- An entry under a new reference, with the wallet changed by as much. -/
theorem Accounts.enter {wallets' : Table (String × ℤ) ℤ} (h : Accounts wallets ledger)
    (hnew : entriesOf ledger e.owner e.kind e.reference = [])
    (hwallets : ∀ owner telegramId, (wallets'.get? (owner, telegramId)).getD 0 =
      (wallets.get? (owner, telegramId)).getD 0 +
        if e.owner = owner ∧ e.telegramId = telegramId then e.deltaMinor else 0)
    (hnonneg : 0 ≤ (wallets.get? (e.owner, e.telegramId)).getD 0 + e.deltaMinor) :
    Accounts wallets' (ledger ++ [e]) where
  balance owner telegramId := by
    rw [hwallets, h.balance, ledgerSum_append]
  nonneg owner telegramId := by
    rw [ledgerSum_append]
    split
    · rename_i hwallet
      rw [← h.balance, ← hwallet.1, ← hwallet.2]
      exact hnonneg
    · simpa using h.nonneg owner telegramId
  once owner kind reference := by
    by_cases hkey : e.owner = owner ∧ e.kind = kind ∧ e.reference = reference
    · obtain ⟨rfl, rfl, rfl⟩ := hkey
      have hone : entriesOf (ledger ++ [e]) e.owner e.kind e.reference = [e] := by
        rw [entriesOf, List.filter_append]
        simpa [entriesOf] using hnew
      simp [hone]
    · have hskip : entriesOf (ledger ++ [e]) owner kind reference =
          entriesOf ledger owner kind reference := by
        simpa [entriesOf, List.filter_append, and_assoc] using hkey
      rw [hskip]
      exact h.once owner kind reference

/-- Where no entry is found there is none. -/
theorem entriesOf_eq_nil {s : Shop} {owner reference : String} {kind : LedgerKind}
    (h : s.hasEntry owner kind reference = false) :
    entriesOf s.ledger owner kind reference = [] := by
  simpa [entriesOf, Shop.hasEntry, List.filter_eq_nil_iff] using h

/-- A credit that does not exceed the largest stored integer. -/
theorem Accounts.credit {s : Shop} {owner reference fresh : String} {telegramId amount : ℤ}
    {kind : LedgerKind} (h : Accounts s.wallets s.ledger) (hamount : 0 < amount)
    (hnew : s.hasEntry owner kind reference = false)
    (hfits : s.balance owner telegramId + amount ≤ maxInt) :
    Accounts (s.wallets.upsert (owner, telegramId) amount fun b => addMinor b amount)
      (s.ledger ++ [⟨fresh, owner, telegramId, amount, kind, reference⟩]) := by
  apply h.enter (entriesOf_eq_nil hnew)
  · intro owner' telegramId'
    rw [Table.get?_upsert]
    by_cases hwallet : owner = owner' ∧ telegramId = telegramId'
    · obtain ⟨rfl, rfl⟩ := hwallet
      cases hrow : s.wallets.get? (owner, telegramId) with
      | none => simp
      | some b =>
          have hb : b + amount ≤ maxInt := by simpa [Shop.balance, hrow] using hfits
          simp [addMinor_of_le hb]
    · have hkey : (owner', telegramId') ≠ (owner, telegramId) := by
        rintro heq
        cases heq
        exact hwallet ⟨rfl, rfl⟩
      simp [hkey, hwallet]
  · have hbalance : 0 ≤ (s.wallets.get? (owner, telegramId)).getD 0 := by
      rw [h.balance]
      exact h.nonneg owner telegramId
    dsimp only
    omega

/-- A debit of what the wallet holds. -/
theorem Accounts.debit {s : Shop} {owner reference fresh : String} {telegramId amount : ℤ}
    {kind : LedgerKind} (h : Accounts s.wallets s.ledger)
    (hnew : s.hasEntry owner kind reference = false)
    (hbalance : amount ≤ s.balance owner telegramId) :
    Accounts (s.wallets.upsert (owner, telegramId) (0 - amount) fun b => b - amount)
      (s.ledger ++ [⟨fresh, owner, telegramId, -amount, kind, reference⟩]) := by
  apply h.enter (entriesOf_eq_nil hnew)
  · intro owner' telegramId'
    rw [Table.get?_upsert]
    by_cases hwallet : owner = owner' ∧ telegramId = telegramId'
    · obtain ⟨rfl, rfl⟩ := hwallet
      cases hrow : s.wallets.get? (owner, telegramId) with
      | none => simp
      | some b => simp [sub_eq_add_neg]
    · have hkey : (owner', telegramId') ≠ (owner, telegramId) := by
        rintro heq
        cases heq
        exact hwallet ⟨rfl, rfl⟩
      simp [hkey, hwallet]
  · rw [Shop.balance] at hbalance
    dsimp only
    omega

/-- Entries of other kinds credit no top-up. -/
theorem Settled.enter (h : Settled ledger topups) (hkind : e.kind ≠ .topup) :
    Settled (ledger ++ [e]) topups where
  approved e' he' htopup := by
    rcases List.mem_append.mp he' with hold | hnew
    · exact h.approved e' hold htopup
    · rw [List.mem_singleton.mp hnew] at htopup
      exact (hkind htopup).elim
  credited topup t ht happroved := by
    obtain ⟨e', he', hcredits⟩ := h.credited topup t ht happroved
    exact ⟨e', List.mem_append_left _ he', hcredits⟩

/-- A new top-up is not credited. -/
theorem Settled.create {topup : String} {t : Topup} (h : Settled ledger topups)
    (hnew : topups.get? topup = none) (hstatus : t.status ≠ .approved) :
    Settled ledger (topups.insert topup t) where
  approved e he htopup := by
    obtain ⟨t', ht', hrest⟩ := h.approved e he htopup
    exact ⟨t', Table.get?_insert_of_some ht' topup t, hrest⟩
  credited topup' t' ht' happroved := by
    rw [Table.get?_insert hnew] at ht'
    split at ht'
    · cases ht'
      exact (hstatus happroved).elim
    · exact h.credited topup' t' ht' happroved

/-- A status that is written to a top-up that is not approved. -/
theorem Settled.write {topup : String} {f : Topup → Topup} (h : Settled ledger topups)
    (hold : ∀ t, topups.get? topup = some t → t.status ≠ .approved)
    (hnew : ∀ t, (f t).status ≠ .approved) : Settled ledger (topups.update topup f) where
  approved e he htopup := by
    obtain ⟨t, ht, howner, happroved⟩ := h.approved e he htopup
    refine ⟨t, ?_, howner, happroved⟩
    have hother : e.reference ≠ topup := by
      rintro rfl
      exact hold t ht happroved
    rw [Table.get?_update, if_neg hother, ht]
  credited topup' t' ht' happroved := by
    rw [Table.get?_update] at ht'
    split at ht'
    · obtain ⟨t, -, rfl⟩ := Option.map_eq_some_iff.mp ht'
      exact (hnew t happroved).elim
    · exact h.credited topup' t' ht' happroved

/-- An approval, with its credit. -/
theorem Settled.approve {topup : String} {t : Topup} (h : Settled ledger topups)
    (ht : topups.get? topup = some t) (he : Credits topup t e) :
    Settled (ledger ++ [e]) (topups.update topup fun r => { r with status := .approved }) where
  approved e' he' htopup := by
    rcases List.mem_append.mp he' with hold | hnew
    · obtain ⟨t', ht', howner, happroved⟩ := h.approved e' hold htopup
      rw [Table.get?_update, ht']
      split
      · exact ⟨_, rfl, howner, rfl⟩
      · exact ⟨t', rfl, howner, happroved⟩
    · rw [List.mem_singleton.mp hnew, Table.get?_update, he.2.2.2.1, if_pos rfl, ht]
      exact ⟨_, rfl, he.1.symm, rfl⟩
  credited topup' t' ht' happroved := by
    rw [Table.get?_update] at ht'
    split at ht'
    · rename_i hsame
      rw [hsame, ht] at ht'
      cases ht'
      exact ⟨e, List.mem_append_right _ (List.mem_singleton_self e), hsame ▸ he⟩
    · obtain ⟨e', he', hcredits⟩ := h.credited topup' t' ht' happroved
      exact ⟨e', List.mem_append_left _ he', hcredits⟩

end Entries

/-! ## Transactions that keep the books -/

/-- A credit leaves the balance within the stored integers. -/
def Shop.Fits (s : Shop) (owner : String) (telegramId amount : ℤ) : Prop :=
  s.balance owner telegramId + amount ≤ maxInt

instance (s : Shop) (owner : String) (telegramId amount : ℤ) :
    Decidable (s.Fits owner telegramId amount) :=
  inferInstanceAs (Decidable (_ ≤ _))

/-- The exceptions: a status is not written to a top-up that has been approved in the
meantime, and no credit exceeds the largest stored integer. -/
def walletOk : ShopAction → Moment → Shop → Prop
  | .topupStatus topup, _, s => ∀ t ∈ s.topups.get? topup, t.status ≠ .approved
  | .approve owner rowId, _, s => ∀ t ∈ s.topupByRowId owner rowId,
      s.Fits owner t.2.telegramId t.2.amountMinor
  | .reward owner telegramId amount, _, s =>
      ∀ r ∈ s.referrals.get? (owner, telegramId), s.Fits owner r.referrer amount
  | .refund owner telegramId amount _, _, s => s.Fits owner telegramId amount
  | .event, _, _ | .confirm, _, _ | .drop, _, _ | .rep _, _, _ | .plain, _, _ => True

instance : ∀ name o s, Decidable (walletOk name o s)
  | .topupStatus topup, _, s =>
      inferInstanceAs (Decidable (∀ t ∈ s.topups.get? topup, t.status ≠ .approved))
  | .approve owner rowId, _, s =>
      inferInstanceAs (Decidable (∀ t ∈ s.topupByRowId owner rowId,
        s.Fits owner t.2.telegramId t.2.amountMinor))
  | .reward owner telegramId amount, _, s =>
      inferInstanceAs (Decidable
        (∀ r ∈ s.referrals.get? (owner, telegramId), s.Fits owner r.referrer amount))
  | .refund owner telegramId amount _, _, s =>
      inferInstanceAs (Decidable (s.Fits owner telegramId amount))
  | .event, _, _ | .confirm, _, _ | .drop, _, _ | .rep _, _, _ | .plain, _, _ => .isTrue trivial

/-- Threads of the shop keep its books. -/
def walletDiscipline : Discipline Moment ShopAction Shop where
  inv := Shop.Sound
  step _ _ := True
  rel _ _ := True
  ok := walletOk
  refl _ := trivial
  sub _ _ _ := trivial
  trans _ _ _ _ _ := trivial

section Transactions

variable {α : Type} {s : Shop} {o : Moment}

/-- A transaction keeps the books if its body does. -/
theorem books_commit {name : ShopAction} {body : Moment → ShopTx α}
    (h : ∀ o s, s.Sound → walletOk name o s →
      (body o).wp (fun _ t => t.Sound) (fun _ _ => True) s) :
    (Script.perform name (commit body)).Steady walletDiscipline := by
  apply steady_commit
  intro o s hs hok
  exact Tx.wp_mono (h o s hs hok) (fun _ _ ht => ⟨ht, trivial⟩) fun _ _ h => h

/-- A transaction that keeps the books keeps the discipline. -/
theorem books_step {body : Moment → ShopTx α}
    (h : ∀ o s, s.Sound → (body o).wp (fun _ t => t.Sound) (fun _ _ => True) s) :
    (step body).Steady walletDiscipline :=
  books_commit fun o s hs _ => h o s hs

/-- A row that is found under its number. -/
theorem topupByRowId_spec {owner : String} {rowId : ℕ} {t : String × Topup}
    (h : s.topupByRowId owner rowId = some t) :
    s.topups.get? t.1 = some t.2 ∧ t.2.owner = owner := by
  have hfound := List.find?_some h
  rw [Bool.and_eq_true, decide_eq_true_eq, decide_eq_true_eq] at hfound
  exact ⟨Table.get?_eq_some_iff.mpr (List.mem_of_find?_eq_some h), hfound.2⟩

/-- A credit keeps the books. -/
theorem wp_creditTx {owner reference : String} {telegramId amount : ℤ} {kind : LedgerKind}
    (hs : s.Sound) (hkind : kind ≠ .topup) (hfits : s.Fits owner telegramId amount) :
    (creditTx owner telegramId amount kind reference o).wp (fun _ t => t.Sound)
      (fun _ _ => True) s := by
  apply creditTx_spec
  · exact fun _ _ => hs
  · exact fun hamount hnew _ => ⟨hs.accounts.credit hamount hnew hfits, hs.settled.enter hkind⟩
  · exact fun _ _ => trivial

/-- A debit keeps the books. -/
theorem wp_debitTx {owner reference : String} {telegramId amount : ℤ} {kind : LedgerKind}
    (hs : s.Sound) (hkind : kind ≠ .topup) :
    (debitTx owner telegramId amount kind reference o).wp (fun _ t => t.Sound)
      (fun _ _ => True) s := by
  apply debitTx_spec
  · exact fun _ _ => hs
  · exact fun _ hnew _ hbalance =>
      ⟨hs.accounts.debit hnew hbalance, hs.settled.enter hkind⟩
  · exact fun _ _ => trivial

/-- An approval credits its top-up, which was not credited before. -/
theorem wp_approveTx {owner : String} {rowId : ℕ} (hs : s.Sound)
    (hok : walletOk (.approve owner rowId) o s) :
    (approveTx owner rowId o).wp (fun _ t => t.Sound) (fun _ _ => True) s := by
  simp only [approveTx, Tx.wp_bind, Tx.wp_read, Tx.wp_ofExcept]
  refine ⟨fun t ht => ?_, fun _ _ => trivial⟩
  have hrow := found_eq_ok ht
  obtain ⟨hget, howner⟩ := topupByRowId_spec hrow
  split
  · exact hs
  · rename_i hstatus
    simp only [demandPolicy, Tx.wp_bind, Tx.wp_require]
    refine ⟨fun _ => ?_, fun _ => trivial⟩
    apply creditTx_spec
    · intro _ hknown
      obtain ⟨e, he, hentry⟩ := List.any_eq_true.mp hknown
      simp only [Bool.and_eq_true, decide_eq_true_eq] at hentry
      obtain ⟨t', ht', -, happroved⟩ := hs.settled.approved e he hentry.1.2
      rw [hentry.2, hget] at ht'
      cases ht'
      exact (hstatus happroved).elim
    · intro hamount hnew _
      exact ⟨hs.accounts.credit hamount hnew (hok t hrow),
        hs.settled.approve hget ⟨howner.symm, rfl, rfl, rfl, rfl⟩⟩
    · exact fun _ _ => trivial

/-- The first sight of a wallet. -/
theorem Accounts.open {wallets : Table (String × ℤ) ℤ} {ledger : List LedgerEntry}
    (h : Accounts wallets ledger) (key : String × ℤ) :
    Accounts (wallets.upsert key 0 id) ledger where
  balance owner telegramId := by
    rw [← h.balance, Table.get?_upsert]
    split
    · rename_i hkey
      rw [hkey]
      cases wallets.get? key with
      | none => rfl
      | some b => rfl
    · rfl
  nonneg := h.nonneg
  once := h.once

/-- A new top-up keeps the books. -/
theorem wp_insertTopup {owner : String} {telegramId amount : ℤ} (hs : s.Sound) :
    (insertTopup owner telegramId amount o).wp (fun _ t => t.Sound) (fun _ _ => True) s := by
  simp only [insertTopup, Tx.wp_bind, Tx.wp_read, Tx.wp_require, id_eq, Tx.wp_write, Tx.wp_pure]
  have hstatus : TopupStatus.awaitingReceipt ≠ .approved := by decide
  exact ⟨fun hnew => ⟨hs.accounts, hs.settled.create hnew hstatus⟩, fun _ => trivial⟩

/-- A reward keeps the books if it fits the wallet. -/
theorem wp_qualifyTx {owner : String} {telegramId reward : ℤ} (hs : s.Sound)
    (hok : walletOk (.reward owner telegramId reward) o s) :
    (qualifyTx owner telegramId reward o).wp (fun _ t => t.Sound) (fun _ _ => True) s := by
  simp only [qualifyTx, Tx.wp_bind, Tx.wp_read]
  cases hrow : s.referrals.get? (owner, telegramId) with
  | none => exact hs
  | some r =>
      dsimp only
      split
      · exact hs
      · simp only [Tx.wp_bind, Tx.wp_when, Tx.wp_write, Tx.wp_pure]
        constructor
        · intro _
          refine Tx.wp_mono (wp_creditTx hs ?_ (hok r hrow)) ?_ ?_
          · decide
          · exact fun _ t ht => ⟨ht.accounts, ht.settled⟩
          · exact fun _ _ h => h
        · exact fun _ => ⟨hs.accounts, hs.settled⟩

/-- A payment keeps the books. -/
theorem wp_payTx {owner orderId reference : String} {current : Order} {kind : LedgerKind}
    {payment : Moment} (hs : s.Sound) (hkind : kind ≠ .topup) :
    (payTx owner orderId current kind reference payment o).wp (fun _ t => t.Sound)
      (fun _ _ => True) s := by
  simp only [payTx, Tx.wp_bind]
  apply wp_requirePlanCredit
  · apply Tx.wp_mono (wp_debitTx hs hkind)
    · intro _ t ht
      simp only [insertPayment, Tx.wp_read, Tx.wp_when, Tx.wp_bind, Tx.wp_require, Tx.wp_write]
      exact ⟨fun _ => ⟨fun _ => ⟨ht.accounts, ht.settled⟩, fun _ => trivial⟩,
        fun _ => ⟨ht.accounts, ht.settled⟩⟩
    · exact fun _ _ h => h
  · exact fun _ => trivial

/-- The payment of a renewal keeps the books. -/
theorem wp_payRenewalTx {owner orderId paymentId : String} (hs : s.Sound) :
    (payRenewalTx owner orderId paymentId o).wp (fun _ t => t.Sound) (fun _ _ => True) s := by
  simp only [payRenewalTx, Tx.wp_bind]
  apply wp_orderTx
  intro order _ _
  split
  · exact hs
  · simp only [demandPolicy, Tx.wp_bind, Tx.wp_require]
    exact ⟨fun _ => wp_payTx hs (by decide), fun _ => trivial⟩

/-- Fixing the end of a renewal keeps the books. -/
theorem wp_renewalExpiryTx {orderId : String} {expiry : ℤ} (hs : s.Sound) :
    (renewalExpiryTx orderId expiry o).wp (fun _ t => t.Sound) (fun _ _ => True) s := by
  simp only [renewalExpiryTx, Tx.wp_bind, Tx.wp_write, Tx.wp_read, Tx.wp_demand, Tx.wp_pure]
  exact ⟨fun _ _ => ⟨hs.accounts, hs.settled⟩, fun _ => trivial⟩

/-- Cleaning up after a representative keeps the books. -/
theorem wp_cleanupTx {rep : String} (hs : s.Sound) :
    (cleanupTx rep o).wp (fun _ t => t.Sound) (fun _ _ => True) s := by
  simp only [cleanupTx, Tx.wp_bind, Tx.wp_read, id_eq]
  split
  · exact ⟨hs.accounts, hs.settled⟩
  · split
    · exact hs
    · split
      · exact hs
      · exact ⟨hs.accounts, hs.settled⟩

end Transactions

/-! ## Methods that keep the books -/

/-- A transaction on the other tables. -/
theorem steady_write {f : Moment → Shop → Shop} (hf : ∀ o s, s.Sound → (f o s).Sound) :
    (step fun o => Tx.write (f o)).Steady walletDiscipline :=
  books_step hf

section Methods

variable {owner orderId : String}

/-- Reading a wallet keeps the discipline. -/
theorem steady_wallet {telegramId : ℤ} : (wallet owner telegramId).Steady walletDiscipline := by
  apply books_step
  intro o s hs
  simp only [Tx.wp_bind, Tx.wp_write, Tx.wp_read]
  exact ⟨hs.accounts.open _, hs.settled⟩

/-- A change of a top-up that does not approve it keeps the discipline. -/
theorem steady_writeTopup {topup : String} {f : Topup → Topup}
    (hf : ∀ t, (f t).status ≠ .approved) : (writeTopup topup f).Steady walletDiscipline := by
  apply books_commit
  intro o s hs hok
  exact ⟨hs.accounts, hs.settled.write hok hf⟩

/-- Creating a top-up keeps the discipline. -/
theorem steady_createTopup {telegramId amount : ℤ} :
    (createTopup owner telegramId amount).Steady walletDiscipline := by
  apply Script.Steady.bind steady_insist
  intro _
  apply Script.Steady.bind (books_step fun _ _ => wp_insertTopup)
  exact fun _ => steady_look

/-- Recording a receipt keeps the discipline. -/
theorem steady_recordTopupReceipt {telegramId : ℤ} {reference : String} :
    (recordTopupReceipt owner telegramId reference).Steady walletDiscipline := by
  apply Script.Steady.bind steady_look
  intro _
  apply Script.Steady.bind .ofExcept
  intro t
  apply Script.Steady.bind
  · apply steady_writeTopup
    exact fun _ => show TopupStatus.review ≠ .approved by decide
  · exact fun _ => steady_look

/-- Approving a top-up keeps the discipline. -/
theorem steady_approveTopup {rowId : ℕ} :
    (approveTopup owner rowId).Steady walletDiscipline :=
  books_commit fun _ _ => wp_approveTx

/-- Rejecting a top-up keeps the discipline. -/
theorem steady_rejectTopup {rowId : ℕ} :
    (rejectTopup owner rowId).Steady walletDiscipline := by
  apply Script.Steady.bind steady_look
  intro t
  apply Script.Steady.bind steady_insist
  intro _
  apply Script.Steady.bind
  · apply steady_writeTopup
    exact fun _ => show TopupStatus.rejected ≠ .approved by decide
  · exact fun _ => steady_look

/-- Rewarding a referral keeps the discipline. -/
theorem steady_qualifyReferral {telegramId : ℤ} :
    (qualifyReferral owner telegramId).Steady walletDiscipline := by
  apply Script.Steady.bind
  · exact books_step fun _ _ hs => ⟨hs.accounts, hs.settled⟩
  · exact fun _ => books_commit fun _ _ => wp_qualifyTx

/-- A change of a client keeps the discipline. -/
theorem steady_managerUpdate {identity : String} {f : Managed → Managed} :
    (managerUpdate identity f).Steady walletDiscipline := by
  apply Script.Steady.bind steady_outside
  intro _
  apply Script.Steady.bind
  · apply books_step
    intro o s hs
    simp only [stageUpdate, Tx.wp_bind, Tx.wp_read, Tx.wp_ofExcept, Tx.wp_write]
    exact ⟨fun _ _ => ⟨hs.accounts, hs.settled⟩, fun _ _ => trivial⟩
  · exact fun _ => .bind steady_outside fun _ => .pure

/-- Deliveries leave the books alone. -/
theorem delivers_books : Delivers walletDiscipline where
  stage identity client := by
    apply books_step
    intro o s hs
    simp only [stageClient, demandPolicy, Tx.wp_bind, Tx.wp_read, Tx.wp_require, Tx.wp_write]
    exact ⟨fun _ => ⟨hs.accounts, hs.settled⟩, fun _ => trivial⟩
  note _ _ := steady_write fun _ _ hs => ⟨hs.accounts, hs.settled⟩
  deliver _ _ _ _ := steady_write fun _ _ hs => ⟨hs.accounts, hs.settled⟩

/-- Paying a purchase keeps the discipline. -/
theorem steady_payPurchase : (payPurchase owner orderId).Steady walletDiscipline := by
  apply Script.Steady.bind steady_look
  intro order
  apply Script.Steady.bind steady_insist
  intro _
  apply Script.Steady.bind steady_insist
  intro _
  split
  · apply Script.Steady.bind delivers_books.provisionOrder
    exact fun _ => .bind steady_qualifyReferral fun _ => .pure
  · apply Script.Steady.bind steady_look
    intro paymentId
    apply Script.Steady.bind
    · apply books_step
      intro o s hs
      simp only [payPurchaseTx, Tx.wp_bind]
      apply wp_orderTx
      intro current _ _
      simp only [demandPolicy, Tx.wp_require]
      exact ⟨fun _ => wp_payTx hs (by decide), fun _ => trivial⟩
    · intro _
      apply Script.Steady.bind delivers_books.provisionOrder
      intro _
      apply Script.Steady.bind steady_qualifyReferral
      exact fun _ => .bind steady_look fun _ => .pure

/-- Fixing the end of a renewal keeps the discipline. -/
theorem steady_renewalExpiry {order : Order} {client : Managed} :
    (renewalExpiry orderId order client).Steady walletDiscipline := by
  unfold renewalExpiry
  split
  · apply Script.Steady.bind steady_look
    exact fun _ => books_step fun _ _ => wp_renewalExpiryTx
  · exact .pure

/-- Renewing a client keeps the discipline. -/
theorem steady_renewClient {target : String} {order : Order} :
    (renewClient orderId target order).Steady walletDiscipline := by
  apply Script.Steady.bind steady_look
  intro _
  apply Script.Steady.bind steady_look
  intro client
  apply Script.Steady.bind steady_insist
  intro _
  apply Script.Steady.bind steady_look
  intro _
  apply Script.Steady.bind steady_insist
  intro _
  apply Script.Steady.bind steady_renewalExpiry
  intro expiry
  apply Script.Steady.bind steady_managerUpdate
  intro _
  apply Script.Steady.bind steady_outside
  intro _
  apply Script.Steady.bind
  · exact steady_write fun _ _ hs => ⟨hs.accounts, hs.settled⟩
  · exact fun _ => .bind steady_look fun _ => .pure

/-- Paying a renewal keeps the discipline. -/
theorem steady_payRenewal : (payRenewal owner orderId).Steady walletDiscipline := by
  apply Script.Steady.bind steady_look
  intro order
  apply Script.Steady.bind steady_insist
  intro _
  apply Script.Steady.bind steady_insist
  intro _
  apply Script.Steady.bind steady_insist
  intro _
  apply Script.Steady.bind steady_look
  intro paymentId
  apply Script.Steady.bind (books_step fun _ _ => wp_payRenewalTx)
  intro renewed
  split
  · exact .pure
  · exact delivers_books.orNote steady_renewClient

/-! ### Representatives -/

/-- A step for a representative that keeps the books keeps the discipline. -/
theorem books_rep {part : RepPart} {body : Moment → ShopTx α}
    (h : ∀ o s, s.Sound → (body o).wp (fun _ t => t.Sound) (fun _ _ => True) s) :
    (repStep part body).Steady walletDiscipline :=
  books_commit fun o s hs _ => h o s hs

/-- Applying a plan keeps the discipline. -/
theorem steady_applyPolicy {rep : String} {plan : PlanSnapshot} :
    (applyPolicy owner rep plan).Steady walletDiscipline := by
  apply Script.Steady.bind steady_look
  intro _
  apply Script.Steady.bind .ofExcept
  intro _
  apply Script.Steady.bind steady_outside
  intro _
  apply Script.Steady.bind
  · exact books_rep fun _ _ hs => ⟨hs.accounts, hs.settled⟩
  · intro _
    apply Script.Steady.bind
    · exact books_rep fun _ _ hs => ⟨hs.accounts, hs.settled⟩
    · exact fun _ => books_rep fun _ _ hs => hs

/-- Provisioning a purchase keeps the discipline. -/
theorem steady_provisionPurchase {order : RepOrder} :
    (provisionPurchase orderId order).Steady walletDiscipline := by
  have hsubscribe : ∀ now,
      (repStep .delivery (subscribeTx orderId order now)).Steady walletDiscipline := by
    intro now
    apply books_rep
    intro o s hs
    simp only [subscribeTx, Tx.wp_bind, Tx.wp_write, Tx.wp_read, Tx.wp_require]
    exact ⟨fun _ => ⟨hs.accounts, hs.settled⟩, fun _ => trivial⟩
  apply Script.Steady.bind steady_look
  intro now
  apply Script.Steady.bind steady_applyPolicy
  intro _
  apply Script.Steady.bind steady_look
  intro account
  cases account with
  | some account => exact .bind steady_insist fun _ => hsubscribe now
  | none =>
      apply Script.Steady.bind steady_insist
      intro _
      apply Script.Steady.bind steady_look
      intro _
      apply Script.Steady.bind .ofExcept
      intro _
      apply Script.Steady.bind
      · apply books_rep
        intro o s hs
        simp only [createAccount, demandPolicy, Tx.wp_bind, Tx.wp_read, Tx.wp_require, Tx.wp_write]
        exact ⟨fun _ => ⟨fun _ => ⟨hs.accounts, hs.settled⟩, fun _ => trivial⟩, fun _ => trivial⟩
      · exact fun _ => hsubscribe now

/-- The renewal of a bot keeps the books. -/
theorem sound_renewBot {order : RepOrder} {sub : Subscription} {s : Shop} (hs : s.Sound) :
    (renewBot order sub s).Sound := by
  unfold renewBot
  split
  · split
    · exact ⟨hs.accounts, hs.settled⟩
    · exact hs
  · exact ⟨hs.accounts, hs.settled⟩

/-- Provisioning a renewal keeps the discipline. -/
theorem steady_provisionRenewal {order : RepOrder} :
    (provisionRenewal orderId order).Steady walletDiscipline := by
  apply Script.Steady.bind steady_look
  intro now
  apply Script.Steady.bind steady_look
  intro sub
  apply Script.Steady.bind steady_applyPolicy
  intro _
  apply books_rep
  intro o s hs
  simp only [extendTx, Tx.wp_bind, Tx.wp_write]
  have hbot : (renewBot order sub (s.enable order.representativeId)).Sound :=
    sound_renewBot ⟨hs.accounts, hs.settled⟩
  exact ⟨hbot.accounts, hbot.settled⟩

/-- A sweep writes no money, whatever its steps are called. -/
theorem steady_suspendAll {name : ShopAction} {now : ℕ}
    {rows : List ((String × ℤ) × Subscription)} :
    (suspendAll name now rows).Steady walletDiscipline := by
  induction rows with
  | nil => exact .pure
  | cons row rows ih =>
      apply Script.Steady.bind
      · exact books_commit fun _ _ hs _ => ⟨hs.accounts, hs.settled⟩
      · exact fun _ => ih

/-- Sweeping expired subscriptions keeps the discipline. -/
theorem steady_sweepExpired {name : ShopAction} {force : Bool} :
    (sweepExpired name force).Steady walletDiscipline := by
  apply Script.Steady.bind steady_outsideAs
  intro recent
  split
  · exact .pure
  · apply Script.Steady.bind steady_lookAs
    intro now
    apply Script.Steady.bind steady_lookAs
    exact fun _ => steady_suspendAll

/-- Reading the result of a representative's order keeps the discipline. -/
theorem steady_repResult {name : ShopAction} :
    (repResult name orderId owner).Steady walletDiscipline := by
  apply Script.Steady.bind steady_lookAs
  exact fun _ => .bind steady_outsideAs fun _ => .pure

/-- Provisioning a representative keeps the discipline. -/
theorem steady_provisionRep : (provisionRep owner orderId).Steady walletDiscipline := by
  apply Script.Steady.bind steady_look
  intro order
  apply Script.Steady.bind
  · unfold provisionBranch
    split
    · exact steady_provisionPurchase
    · exact steady_provisionRenewal
  · intro _
    apply Script.Steady.bind steady_sweepExpired
    exact fun _ => steady_repResult

/-- Refunding a representative keeps the discipline. -/
theorem steady_refundRep {telegramId : ℤ} {order : RepOrder} {e : Failure} :
    (refundRep owner orderId telegramId order e).Steady walletDiscipline := by
  apply Script.Steady.bind
  · apply books_commit
    intro o s hs hok
    simp only [refundTx, Tx.wp_bind, Tx.wp_write]
    apply Tx.wp_mono (wp_creditTx hs (by decide) hok)
    · exact fun _ t ht => ⟨ht.accounts, ht.settled⟩
    · exact fun _ _ h => h
  · intro _
    apply Script.Steady.bind
    · unfold cleanupRep
      split
      · exact books_rep fun _ _ => wp_cleanupTx
      · exact .pure
    · exact fun _ => .raise

/-- Paying a representative's order keeps the discipline. -/
theorem steady_payRepOrder {telegramId : ℤ} :
    (payRepOrder owner orderId telegramId).Steady walletDiscipline := by
  apply Script.Steady.bind steady_look
  intro order
  apply Script.Steady.bind steady_insist
  intro _
  split
  · exact steady_repResult
  · apply Script.Steady.bind steady_insist
    intro _
    apply Script.Steady.bind
    · apply books_rep
      intro o s hs
      simp only [payRepTx, Tx.wp_bind, Tx.wp_write]
      have hkind : order.debitKind ≠ .topup := by
        unfold RepOrder.debitKind
        split
        · decide
        · decide
      apply Tx.wp_mono (wp_debitTx hs hkind)
      · exact fun _ t ht => ⟨ht.accounts, ht.settled⟩
      · exact fun _ _ h => h
    · exact fun _ => steady_provisionRep.handle fun _ => steady_refundRep

end Methods

/-! ## Calls -/

/-- Calls of the wallet methods. -/
inductive WalletCall where
  | wallet (owner : String) (telegramId : ℤ)
  | createTopup (owner : String) (telegramId amount : ℤ)
  | recordTopupReceipt (owner : String) (telegramId : ℤ) (reference : String)
  | approveTopup (owner : String) (rowId : ℕ)
  | rejectTopup (owner : String) (rowId : ℕ)
  | payPurchase (owner orderId : String)
  | payRenewal (owner orderId : String)
  | qualifyReferral (owner : String) (telegramId : ℤ)
  | payRepOrder (owner orderId : String) (telegramId : ℤ)

/-- The scripts of the calls; their results are dropped. -/
def WalletCall.script : WalletCall → ShopScript Unit
  | wallet owner telegramId => do let _ ← Commerce.wallet owner telegramId
  | createTopup owner telegramId amount => do
      let _ ← Commerce.createTopup owner telegramId amount
  | recordTopupReceipt owner telegramId reference => do
      let _ ← Commerce.recordTopupReceipt owner telegramId reference
  | approveTopup owner rowId => do let _ ← Commerce.approveTopup owner rowId
  | rejectTopup owner rowId => do let _ ← Commerce.rejectTopup owner rowId
  | payPurchase owner orderId => Commerce.payPurchase owner orderId
  | payRenewal owner orderId => Commerce.payRenewal owner orderId
  | qualifyReferral owner telegramId => do let _ ← Commerce.qualifyReferral owner telegramId
  | payRepOrder owner orderId telegramId => Commerce.payRepOrder owner orderId telegramId

/-- The calls keep the books, transaction by transaction. -/
theorem steady_script (c : WalletCall) : c.script.Steady walletDiscipline := by
  cases c with
  | wallet owner telegramId => exact .bind steady_wallet fun _ => .pure
  | createTopup owner telegramId amount => exact .bind steady_createTopup fun _ => .pure
  | recordTopupReceipt owner telegramId reference =>
      exact .bind steady_recordTopupReceipt fun _ => .pure
  | approveTopup owner rowId => exact .bind steady_approveTopup fun _ => .pure
  | rejectTopup owner rowId => exact .bind steady_rejectTopup fun _ => .pure
  | payPurchase owner orderId => exact steady_payPurchase
  | payRenewal owner orderId => exact steady_payRenewal
  | qualifyReferral owner telegramId => exact .bind steady_qualifyReferral fun _ => .pure
  | payRepOrder owner orderId telegramId => exact steady_payRepOrder

/-- The other methods of the shop may leave anything in the other tables. -/
def Shop.others (tables s : Shop) : Shop :=
  { tables with
    wallets := s.wallets
    ledger := s.ledger
    topups := s.topups }

/-- Threads that carry out wallet methods. -/
abbrev WalletSystem : Type 1 :=
  Pool WalletCall Moment ShopAction Shop Failure Unit

namespace WalletSystem

/-- What happens to the threads of the wallet methods. -/
def next : WalletSystem → PoolEvent WalletCall Moment Shop → Option WalletSystem :=
  Pool.next WalletCall.script Shop.others

/-- The step relation of the wallet methods. -/
def Step (w : WalletSystem) (e : PoolEvent WalletCall Moment Shop) (w' : WalletSystem) : Prop :=
  w.next e = some w'

/-- A step that avoids the two exceptions. -/
def Allowed (w : WalletSystem) (e : PoolEvent WalletCall Moment Shop) : Prop :=
  Pool.Allowed walletOk w e

instance (w : WalletSystem) (e : PoolEvent WalletCall Moment Shop) : Decidable (w.Allowed e) :=
  Pool.decidableAllowed w e

/-- The threads keep the books. -/
def Safe (w : WalletSystem) : Prop :=
  Pool.Safe walletDiscipline (fun _ _ _ => True) (fun _ _ _ => True) w

/-- An allowed event keeps the system safe. -/
theorem Safe.step {w w' : WalletSystem} {e : PoolEvent WalletCall Moment Shop} (h : w.Safe)
    (hstep : Step w e w') (hallowed : w.Allowed e) : w'.Safe := by
  refine (Pool.Safe.next h ?_ ?_ hstep hallowed).1
  · exact fun c s _ => (steady_script c).safe s
  · exact fun tables s hs => ⟨⟨hs.accounts, hs.settled⟩, trivial⟩

end WalletSystem

/-! ## Conservation -/

/-- Balances are the sums of the ledger and never negative, every reference is entered
once, and exactly the approved top-ups are credited. -/
structure Shop.Conserved (s : Shop) : Prop where
  balance : ∀ owner telegramId,
    s.balance owner telegramId = ledgerSum s.ledger owner telegramId
  nonneg : ∀ owner telegramId, 0 ≤ s.balance owner telegramId
  once : ∀ owner kind reference, (entriesOf s.ledger owner kind reference).length ≤ 1
  topups : ∀ topup t, s.topups.get? topup = some t →
    ((∃ e ∈ s.ledger, Credits topup t e) ↔ t.status = .approved)
  uncredited : ∀ topup t, s.topups.get? topup = some t → t.status ≠ .approved →
    entriesOf s.ledger t.owner .topup topup = []

/-- Sound books conserve money. -/
theorem Shop.Sound.conserved {s : Shop} (h : s.Sound) : s.Conserved where
  balance := h.accounts.balance
  nonneg owner telegramId := by
    have hbalance := h.accounts.balance owner telegramId
    rw [Shop.balance, hbalance]
    exact h.accounts.nonneg owner telegramId
  once := h.accounts.once
  topups topup t ht := by
    constructor
    · rintro ⟨e, he, -, -, hkind, hreference, -⟩
      obtain ⟨t', ht', -, happroved⟩ := h.settled.approved e he hkind
      rw [hreference, ht] at ht'
      cases ht'
      exact happroved
    · exact h.settled.credited topup t ht
  uncredited topup t ht hstatus := by
    rw [entriesOf, List.filter_eq_nil_iff]
    intro e he hentry
    simp only [Bool.and_eq_true, decide_eq_true_eq] at hentry
    obtain ⟨t', ht', -, happroved⟩ := h.settled.approved e he hentry.1.2
    rw [hentry.2, ht] at ht'
    cases ht'
    exact hstatus happroved

/-- The books of an empty shop are sound. -/
theorem sound_empty : Shop.empty.Sound where
  accounts :=
    { balance := fun _ _ => rfl
      nonneg := fun _ _ => le_refl 0
      once := fun _ _ _ => Nat.zero_le 1 }
  settled :=
    { approved := fun _ he => (List.not_mem_nil he).elim
      credited := fun _ _ ht => by cases ht }

/-- The system begins safe. -/
theorem WalletSystem.safe_start : WalletSystem.Safe (Pool.start .empty) :=
  Pool.safe_start sound_empty

/-- Over every interleaving of the wallet methods in which no status is written to a
top-up that has been approved since it was read, and no credit exceeds the largest
stored integer: the wallets are conserved. -/
theorem wallet_conservation {es : List (PoolEvent WalletCall Moment Shop)} {w : WalletSystem}
    (hrun : Run (Guarded WalletSystem.Step WalletSystem.Allowed) (Pool.start .empty) es w) :
    w.store.Conserved := by
  have hsafe : w.Safe := hrun.invariant WalletSystem.safe_start
    fun _ _ _ h hstep => h.step hstep.1 hstep.2
  exact hsafe.inv.conserved

/-! ### A rejection that was overtaken -/

/-- The input of a transaction that inserts nothing. -/
def atNow : Moment := ⟨1, "", none, 0, true⟩

/-- A top-up with a receipt. -/
def receivedTopup : List (PoolEvent WalletCall Moment Shop) :=
  [.enter (.createTopup "shop" 7 5000), .run 0 { atNow with fresh := "topup" }, .run 0 atNow,
    .answer 0, .enter (.recordTopupReceipt "shop" 7 "receipt"), .run 0 atNow, .run 0 atNow,
    .run 0 atNow, .answer 0]

/-- Its approval, while a rejection is under way. -/
def overtakenRejection : List (PoolEvent WalletCall Moment Shop) :=
  receivedTopup ++ [.enter (.rejectTopup "shop" 1), .run 0 atNow,
    .enter (.approveTopup "shop" 1), .run 1 { atNow with fresh := "credit" }, .run 0 atNow]

/-- The top-up ends rejected and credited. -/
theorem overtaken_rejection : ¬∀ es w,
    Run WalletSystem.Step (Pool.start .empty) es w → w.store.Conserved := by
  intro h
  have heval : ((overtakenRejection.foldlM WalletSystem.next (Pool.start .empty)).map
      fun w => ((w.store.topups.get? "topup").map fun t => (t.owner, t.status),
        (entriesOf w.store.ledger "shop" .topup "topup").length)) =
        some (some ("shop", .rejected), 1) := by
    decide +kernel
  obtain ⟨w, hrun, hobserved⟩ := Option.map_eq_some_iff.mp heval
  rw [Prod.mk.injEq] at hobserved
  obtain ⟨t, ht, hfields⟩ := Option.map_eq_some_iff.mp hobserved.1
  rw [Prod.mk.injEq] at hfields
  have hstatus : t.status ≠ .approved := by
    rw [hfields.2]
    decide
  have hnone := (h _ w (Run.of_eval hrun)).uncredited "topup" t ht hstatus
  rw [hfields.1] at hnone
  simp [hnone] at hobserved

/-- A rejection that is not overtaken. -/
def timelyRejection : List (PoolEvent WalletCall Moment Shop) :=
  receivedTopup ++ [.enter (.rejectTopup "shop" 1), .run 0 atNow, .run 0 atNow, .run 0 atNow]

/-- After a rejected top-up the money is conserved. -/
theorem wallet_conservation_rejected : ∃ w : WalletSystem, w.store.Conserved ∧
    (w.store.topups.get? "topup").map Topup.status = some .rejected := by
  have heval : (timelyRejection.foldlM
      (fun w e => if WalletSystem.Allowed w e then w.next e else none)
      (Pool.start .empty)).map
        (fun w => (w.store.topups.get? "topup").map Topup.status) = some (some .rejected) := by
    decide +kernel
  obtain ⟨w, hrun, hobserved⟩ := Option.map_eq_some_iff.mp heval
  exact ⟨w, wallet_conservation (Run.of_guarded_eval hrun), hobserved⟩

end Commerce
end DarkXray
