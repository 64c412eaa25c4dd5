import DarkXray.Library.Runs
import DarkXray.Policy.Operations

/-!
# Conservation of resource credit

For a representative the ledger, the spent units and the sold volume stay in
balance under every call, with any arguments and whether it returns or raises.

Main results:

- Theorem {lit}`conserves_charged`: a charge keeps one owner in balance and never
  returns spent units.
- Theorem {lit}`Call.conserves`: so does every call.
- Theorem {lit}`resource_credit_conserved`: so does every sequence of calls from a
  fresh store, and a failed call changes nothing.
-/

namespace DarkXray
namespace Policy

open Library Credit

/-- The credit of one representative is in balance. -/
structure Balanced (o : String) (s : Store) : Prop where
  reseller : s.admins o = some .reseller
  ledger : s.ledgerUnits o = s.unspent o
  spent : 0 ≤ s.spent o
  unspent : 0 ≤ s.unspent o
  volume : s.soldVolume o ≤ s.volumeCredit o

/-- From a balanced store to a balanced store, without a loss of spent units. -/
def Conserves (o : String) (s t : Store) : Prop :=
  Balanced o s → Balanced o t ∧ s.spent o ≤ t.spent o

variable {o : String} {s t u : Store}

/-- No change conserves the credit. -/
theorem Conserves.refl (o : String) (s : Store) : Conserves o s s :=
  fun h => ⟨h, le_rfl⟩

/-- Changes that conserve the credit compose. -/
theorem Conserves.trans (hst : Conserves o s t) (htu : Conserves o t u) : Conserves o s u := by
  intro h
  rcases hst h with ⟨ht, hspent⟩
  rcases htu ht with ⟨hu, hspent'⟩
  exact ⟨hu, hspent.trans hspent'⟩

/-- A fresh store is balanced. -/
theorem balanced_fresh {admins : String → Option Role} (h : admins o = some .reseller) :
    Balanced o (Store.fresh admins) where
  reseller := h
  ledger := rfl
  spent := le_rfl
  unspent := le_rfl
  volume := le_rfl

/-- In a balanced store credit is enforced. -/
theorem Balanced.enforced (h : Balanced o s) (actor : Option Actor) :
    s.resourceCreditEnforced o actor = true := by
  simp [Store.resourceCreditEnforced, h.reseller]

/-- What one client contributes to the sold volume of an owner. -/
def Client.soldTo (c : Client) (o : String) : ℤ :=
  if c.owner = o ∧ 0 < c.quotaBytes then c.quotaBytes else 0

/-- What was sold is not negative. -/
theorem Client.soldTo_nonneg (c : Client) (o : String) : 0 ≤ c.soldTo o := by
  unfold Client.soldTo
  split <;> omega

/-! ## Owners and ledger -/

/-- Enough for a step to conserve: the ledger moves with the unspent credit, spent
units stay spent, and the new sold volume is within the new credit. -/
theorem Conserves.intro (hadmins : t.admins = s.admins)
    (hledger : t.ledgerUnits o - s.ledgerUnits o = t.unspent o - s.unspent o)
    (hspent : s.spent o ≤ t.spent o)
    (hunspent : Balanced o s → 0 ≤ t.unspent o)
    (hvolume : Balanced o s → t.soldVolume o ≤ t.volumeCredit o) : Conserves o s t := by
  intro h
  have hbal := h.ledger
  refine ⟨⟨?_, ?_, ?_, hunspent h, hvolume h⟩, hspent⟩
  · rw [hadmins, h.reseller]
  · omega
  · exact h.spent.trans hspent

/-- A step that leaves the owner's row and ledger alone only has to care for the
sold volume. -/
theorem Conserves.of_volume (hadmins : t.admins = s.admins)
    (howner : t.owners.get? o = s.owners.get? o) (hledger : t.ledgerUnits o = s.ledgerUnits o)
    (hvolume : Balanced o s → t.soldVolume o ≤ s.volumeCredit o) : Conserves o s t := by
  have hunspent : t.unspent o = s.unspent o := by simp [Store.unspent, howner]
  have hspent : t.spent o = s.spent o := by simp [Store.spent, howner]
  have hcredit : t.volumeCredit o = s.volumeCredit o := by simp [Store.volumeCredit, howner]
  apply Conserves.intro hadmins
  · rw [hledger, hunspent, sub_self, sub_self]
  · exact hspent.ge
  · intro h
    rw [hunspent]
    exact h.unspent
  · intro h
    rw [hcredit]
    exact hvolume h

/-- A new ledger row moves the recorded units of its owner. -/
theorem ledgerUnits_insert {eventId : String} {row : CreditRow}
    (hnew : s.resourceCreditLedger.get? eventId = none)
    (ht : t.resourceCreditLedger = s.resourceCreditLedger.insert eventId row) :
    t.ledgerUnits o = s.ledgerUnits o + if row.owner = o then row.unlimitedUnits else 0 := by
  simp only [Store.ledgerUnits, ht]
  exact Table.total_insert hnew row _

/-- The sold volume depends on the clients only. -/
theorem soldVolume_congr (h : t.clients = s.clients) : t.soldVolume o = s.soldVolume o := by
  simp [Store.soldVolume, h]

/-- A charge keeps every owner in balance and never returns spent units. -/
theorem conserves_charged {owner : String} {debit : ℤ} (h : Charged owner debit s t)
    (hclients : t.clients = s.clients) (hadmins : t.admins = s.admins) : Conserves o s t := by
  cases h with
  | free _ howners hledger =>
      apply Conserves.of_volume hadmins
      · rw [howners]
      · simp [Store.ledgerUnits, hledger]
      · exact fun h => (soldVolume_congr hclients).trans_le h.volume
  | @paid eventId row hdebit hunspent howners hrow hunits hnew hledger =>
      have hledger' := ledgerUnits_insert (o := o) hnew hledger
      rw [hrow, hunits] at hledger'
      by_cases ho : owner = o
      · subst ho
        cases hget : s.owners.get? owner with
        | none =>
            simp only [Store.unspent, hget, Option.elim_none] at hunspent
            omega
        | some r =>
            have hrow' : t.owners.get? owner =
                some { r with unlimitedSpent := r.unlimitedSpent + debit } := by
              simp [howners, hget]
            rw [if_pos rfl] at hledger'
            apply Conserves.intro hadmins
            · simp only [Store.unspent, hrow', hget, Option.elim_some]
              omega
            · simp only [Store.spent, hrow', hget, Option.elim_some]
              omega
            · simp only [Store.unspent, hget, hrow', Option.elim_some] at hunspent ⊢
              omega
            · intro h
              have hvolume := h.volume
              rw [soldVolume_congr hclients]
              simpa only [Store.volumeCredit, hget, hrow', Option.elim_some] using hvolume
      · rw [if_neg ho, add_zero] at hledger'
        apply Conserves.of_volume hadmins
        · simp [howners, Ne.symm ho]
        · exact hledger'
        · exact fun h => (soldVolume_congr hclients).trans_le h.volume

/-- A change of one client's plan conserves the credit of every owner. -/
theorem conserves_changed {clientId owner : String} {c : PlanCall} {preview : Bool}
    (h : Changed clientId owner c preview s t) :
    Conserves o s t ∧ t.clients = s.clients ∧ t.admins = s.admins ∧
      t.volumeCredit o = s.volumeCredit o := by
  cases h with
  | unenforced _ hsame =>
      subst hsame
      exact ⟨.refl o _, rfl, rfl, rfl⟩
  | quoted _ _ _ hsame =>
      subst hsame
      exact ⟨.refl o _, rfl, rfl, rfl⟩
  | settled _ _ _ _ hcharged hclients hadmins _ =>
      refine ⟨conserves_charged hcharged hclients hadmins, hclients, hadmins, ?_⟩
      cases hcharged with
      | free _ howners _ => simp [Store.volumeCredit, howners]
      | paid _ _ howners _ _ _ _ =>
          simp only [Store.volumeCredit, howners, Table.get?_update]
          split
          · cases s.owners.get? o <;> rfl
          · rfl

/-! ## Operations on owners -/

/-- A grant sets the credit of one owner and records the difference. -/
theorem conserves_grant {owner : String} {r' : Owner}
    (hadmins : t.admins = s.admins) (hclients : t.clients = s.clients)
    (howners : ∀ k, t.owners.get? k = if k = owner then some r' else s.owners.get? k)
    (hspent : r'.unlimitedSpent = s.spent owner)
    (hledger : ∀ k, t.ledgerUnits k = s.ledgerUnits k +
      if owner = k then r'.unlimitedCredit - (s.spent owner + s.unspent owner) else 0)
    (hcredit : s.resourceCreditEnforced owner none = true →
      s.spent owner ≤ r'.unlimitedCredit ∧ s.soldVolume owner ≤ r'.volumeCreditBytes) :
    Conserves o s t := by
  have hledger' := hledger o
  by_cases ho : owner = o
  · subst ho
    have hget : t.owners.get? owner = some r' := by rw [howners, if_pos rfl]
    rw [if_pos rfl] at hledger'
    apply Conserves.intro hadmins
    · simp only [Store.unspent, hget, Option.elim_some] at hledger' ⊢
      omega
    · simp [Store.spent, hget] at hspent ⊢
      exact hspent.ge
    · intro h
      have := (hcredit (h.enforced none)).1
      simp only [Store.unspent, hget, Option.elim_some]
      omega
    · intro h
      rw [soldVolume_congr hclients]
      simpa only [Store.volumeCredit, hget, Option.elim_some] using (hcredit (h.enforced none)).2
  · rw [if_neg ho, add_zero] at hledger'
    apply Conserves.of_volume hadmins
    · rw [howners, if_neg (Ne.symm ho)]
    · exact hledger'
    · exact fun h => (soldVolume_congr hclients).trans_le h.volume

/-- Credit that is enforced is so for every actor. -/
theorem enforced_some {owner : String} (h : s.resourceCreditEnforced owner none = true)
    (actor : Actor) : s.resourceCreditEnforced owner (some actor) = true := by
  have hreseller : s.admins owner = some .reseller := by
    simpa [Store.resourceCreditEnforced] using h
  simp [Store.resourceCreditEnforced, hreseller]

/-- The credit is what is spent and what is not. -/
theorem credit_eq (s : Store) (owner : String) :
    (s.owners.get? owner).elim 0 Owner.unlimitedCredit = s.spent owner + s.unspent owner := by
  simp only [Store.spent, Store.unspent]
  cases s.owners.get? owner with
  | none => rfl
  | some r =>
      simp only [Option.elim_some]
      omega

/-- Storing an owner keeps the units it has spent. -/
theorem storeOwner_ok {owner : String} {volume unlimited maxClients : ℤ} {manual : Bool} {r : Unit}
    (h : storeOwner owner volume unlimited maxClients manual s = (.ok r, t)) :
    ∃ r' : Owner,
      (∀ k, t.owners.get? k = if k = owner then some r' else s.owners.get? k) ∧
      r'.unlimitedSpent = s.spent owner ∧ r'.unlimitedCredit = unlimited ∧
      r'.volumeCreditBytes = volume ∧ t.clients = s.clients ∧ t.admins = s.admins ∧
      t.resourceCreditLedger = s.resourceCreditLedger := by
  rw [storeOwner, Tx.write_ok_iff] at h
  subst h
  refine ⟨_, fun k => Table.get?_upsert _ _ _ _ _, ?_⟩
  cases hget : s.owners.get? owner with
  | none => exact ⟨by simp [Store.spent, hget], rfl, rfl, rfl, rfl, rfl⟩
  | some r => exact ⟨by simp [Store.spent, hget], rfl, rfl, rfl, rfl, rfl⟩

/-- Registering an owner conserves the credit of every owner. -/
theorem conserves_registerOwner {actor : Actor} {owner uuid : String}
    {volume unlimited maxClients manual quota : Value} {r : Unit}
    (h : registerOwner actor owner volume unlimited maxClients manual quota uuid s = (.ok r, t)) :
    Conserves o s t := by
  simp only [registerOwner, Actor.require, demandPolicy, Tx.require_bind_iff,
    Tx.ofExcept_bind_iff, Tx.transaction_ok_iff, Tx.read_bind, Store.allocation_ok_iff,
    Store.volumeOf_all, credit_eq] at h
  rcases h with ⟨_, _, _, _, _, _, _, _, newVolume, _, newUnlimited, _, allocated, ⟨_, rfl⟩,
    hvolume, hunlimited, _, h⟩
  rcases Tx.bind_ok_iff.mp h with ⟨_, u, hstore, hgrant⟩
  rcases storeOwner_ok hstore with ⟨r', howners, hspent, rfl, rfl, hclients, hadmins, hledger⟩
  have hcredit : s.resourceCreditEnforced owner none = true →
      s.spent owner ≤ r'.unlimitedCredit ∧ s.soldVolume owner ≤ r'.volumeCreditBytes := by
    intro henforced
    have hactor := enforced_some henforced actor
    exact ⟨not_lt.mp fun hlt => hunlimited ⟨hactor, hlt⟩,
      not_lt.mp fun hlt => hvolume ⟨hactor, hlt⟩⟩
  rw [Tx.when_ok_iff, Store.insertCredit_ok_iff] at hgrant
  rcases hgrant with ⟨_, hnew, rfl⟩ | ⟨hzero, rfl⟩
  · exact conserves_grant hadmins hclients howners hspent
      (fun k => by
        rw [ledgerUnits_insert hnew rfl]
        simp [Store.ledgerUnits, hledger]) hcredit
  · exact conserves_grant hadmins hclients howners hspent
      (fun k => by
        rw [not_not, credit_eq] at hzero
        rw [hzero]
        simp [Store.ledgerUnits, hledger]) hcredit

/-- Adjusting the credit of an owner conserves the credit of every owner. -/
theorem conserves_adjustNew {owner eventId : String} {volumeBytes unlimitedUnits : ℤ} {r : Unit}
    (h : adjustNew owner volumeBytes unlimitedUnits eventId s = (.ok r, t)) :
    Conserves o s t := by
  simp only [adjustNew, demandPolicy, Tx.require_bind_iff, Tx.demand_bind_iff,
    Tx.ofExcept_bind_iff, Tx.read_bind, Store.allocation_ok_iff, Store.volumeOf_all] at h
  rcases h with ⟨row, hrow, _, _, _, allocated, ⟨_, rfl⟩, hvolume, hunlimited, h⟩
  rcases Tx.bind_ok_iff.mp h with ⟨_, u, hinsert, hwrite⟩
  rw [Store.insertCredit_ok_iff] at hinsert
  rw [Tx.write_ok_iff] at hwrite
  rcases hinsert with ⟨hnew, rfl⟩
  subst hwrite
  have hspent : row.unlimitedSpent = s.spent owner := by simp [Store.spent, hrow]
  have hcredit : row.unlimitedCredit = s.spent owner + s.unspent owner := by
    rw [← credit_eq, hrow]
    rfl
  have howners : ∀ k, (s.owners.update owner fun r => { r with
      volumeCreditBytes := row.volumeCreditBytes + volumeBytes
      unlimitedCredit := row.unlimitedCredit + unlimitedUnits }).get? k =
        if k = owner then some { row with
          volumeCreditBytes := row.volumeCreditBytes + volumeBytes
          unlimitedCredit := row.unlimitedCredit + unlimitedUnits }
        else s.owners.get? k := by
    intro k
    rw [Table.get?_update]
    split <;> rename_i hk
    · rw [hk, hrow]
      rfl
    · rfl
  refine conserves_grant (s := s) ?_ ?_ howners hspent ?_ ?_
  · rfl
  · rfl
  · intro k
    rw [ledgerUnits_insert hnew rfl]
    congr 1
    dsimp only
    split
    · omega
    · rfl
  · intro _
    exact ⟨hspent ▸ not_lt.mp hunlimited, not_lt.mp hvolume⟩

/-- Adjusting credit conserves it. -/
theorem conserves_adjustResourceCredit {actor : Actor} {owner : String}
    {volumeBytes unlimitedUnits eventId : Value} {r : Bool}
    (h : adjustResourceCredit actor owner volumeBytes unlimitedUnits eventId s = (.ok r, t)) :
    Conserves o s t := by
  simp only [adjustResourceCredit, Actor.require, demandPolicy, Tx.require_bind_iff,
    Tx.ofExcept_bind_iff, Tx.transaction_ok_iff, Tx.read_bind, Tx.ite_ok_iff, Tx.pure_ok_iff] at h
  rcases h with ⟨_, volume, _, units, _, _, id, _, ⟨_, _, _, rfl⟩ | ⟨_, h⟩⟩
  · exact .refl o _
  · rcases Tx.bind_ok_iff.mp h with ⟨_, u, hadjust, hreturn⟩
    rw [Tx.pure_ok_iff] at hreturn
    rcases hreturn with ⟨_, rfl⟩
    exact conserves_adjustNew hadjust

/-! ## Operations on clients -/

/-- The sold volume after a sale. -/
theorem soldVolume_insert {id : String} {c : Client} (hnew : s.clients.get? id = none)
    (ht : t.clients = s.clients.insert id c) :
    t.soldVolume o = s.soldVolume o + c.soldTo o := by
  simp only [Store.soldVolume, ht]
  exact Table.total_insert hnew c _

/-- The sold volume after an edit. -/
theorem soldVolume_update {id : String} {c c' : Client} (hget : s.clients.get? id = some c)
    (ht : t.clients = s.clients.update id fun _ => c') :
    t.soldVolume o + c.soldTo o = s.soldVolume o + c'.soldTo o := by
  simp only [Store.soldVolume, ht]
  exact Table.total_update hget (fun _ => c') _

/-- The sold volume after a removal. -/
theorem soldVolume_erase {id : String} {c : Client} (hget : s.clients.get? id = some c)
    (ht : t.clients = s.clients.erase id) : t.soldVolume o + c.soldTo o = s.soldVolume o := by
  simp only [Store.soldVolume, ht]
  exact Table.total_erase hget _

/-- The allocation without one client lacks what that client contributes. -/
theorem volumeOf_others {id : String} {c : Client} (hget : s.clients.get? id = some c) :
    s.volumeOf o (fun k => k ≠ id) + c.soldTo o = s.soldVolume o := by
  rw [Store.soldVolume, ← Table.total_omit hget]
  congr 1
  refine Table.total_congr fun k r _ => ?_
  by_cases hk : k = id
  · simp [hk]
  · simp [hk]

/-- Registering a client conserves the credit of every owner. -/
theorem conserves_registerClient {actor : Actor} {clientId owner : String}
    {limitIp quota price orderId expiresAt days : Value} {now : ℤ} {r : Bool}
    (h : registerClient actor clientId owner limitIp quota price orderId expiresAt days now s =
      (.ok r, t)) : Conserves o s t := by
  simp only [registerClient, Actor.require, demandPolicy, Tx.require_bind_iff,
    Tx.ofExcept_bind_iff, Tx.demand_bind_iff, Tx.transaction_ok_iff, Tx.read_bind] at h
  rcases h with ⟨_, _, limit', _, quota', _, _, _, expires', _, _, row, hrow, _, _, allocated,
    hallocated, hvolume, h⟩
  rcases Tx.bind_ok_iff.mp h with ⟨quote, u, hchange, hinsert⟩
  simp only [Tx.read_bind, Tx.require_bind_iff, Tx.write_bind, Tx.pure_ok_iff] at hinsert
  rcases hinsert with ⟨hnew, _, rfl⟩
  rcases conserves_changed (o := o) (change_ok hchange) with ⟨hconserves, hclients, hadmins, hcredit⟩
  refine hconserves.trans (Conserves.of_volume (s := u) ?_ ?_ ?_ ?_)
  · rfl
  · rfl
  · rfl
  · intro hu
    rw [soldVolume_insert hnew rfl]
    by_cases hsold : owner = o ∧ 0 < quota'
    · rcases hsold with ⟨rfl, hquota⟩
      have henforced : s.resourceCreditEnforced owner (some actor) = true := by
        have hreseller := hu.reseller
        rw [hadmins] at hreseller
        simp [Store.resourceCreditEnforced, hreseller]
      rw [if_pos henforced, Store.allocation_ok_iff, Store.volumeOf_all] at hallocated
      have hroom := not_lt.mp fun hlt => hvolume ⟨henforced, hquota, hlt⟩
      have hrowCredit : s.volumeCredit owner = row.volumeCreditBytes := by
        simp [Store.volumeCredit, hrow]
      rw [hcredit, hrowCredit, soldVolume_congr hclients, ← hallocated.2]
      simpa [Client.soldTo, hquota] using hroom
    · have hzero : Client.soldTo ⟨owner, limit', quota', expires', false⟩ o = 0 := if_neg hsold
      rw [hzero, add_zero]
      exact hu.volume

/-- The check of a new quota leaves room for it. -/
theorem checkVolume_ok {actor : Actor} {clientId owner : String} {quota : ℤ} {r : Unit}
    (h : checkVolume actor clientId owner quota s = (.ok r, t)) :
    s = t ∧ (s.resourceCreditEnforced owner (some actor) = true → 0 < quota →
      s.volumeOf owner (fun k => k ≠ clientId) + quota ≤ s.volumeCredit owner) := by
  simp only [checkVolume, demandPolicy, Tx.read_bind, Tx.ite_ok_iff, Tx.demand_bind_iff,
    Tx.ofExcept_bind_iff, Tx.require_ok_iff, Tx.pure_ok_iff, Store.allocation_ok_iff] at h
  rcases h with ⟨henforced, row, hrow, allocated, ⟨_, rfl⟩, hroom, rfl⟩ | ⟨hfree, _, rfl⟩
  · refine ⟨rfl, fun _ hquota => ?_⟩
    simp only [Store.volumeCredit, hrow, Option.elim_some]
    exact not_lt.mp fun hlt => hroom ⟨hquota, hlt⟩
  · exact ⟨rfl, fun henforced => absurd henforced hfree⟩

/-- A new quota that passed the check keeps the sold volume within the credit. -/
theorem soldVolume_edit {clientId : String} {c c' : Client} (hu : Balanced o s)
    (hget : s.clients.get? clientId = some c)
    (ht : t.clients = s.clients.update clientId fun _ => c')
    (hroom : c'.quotaBytes = c.quotaBytes ∨ (c.owner = o → 0 < c'.quotaBytes →
      s.volumeOf o (fun k => k ≠ clientId) + c'.quotaBytes ≤ s.volumeCredit o))
    (howner : c'.owner = c.owner) : t.soldVolume o ≤ s.volumeCredit o := by
  have hsold := soldVolume_update (o := o) hget ht
  have hothers := volumeOf_others (o := o) hget
  have hvolume := hu.volume
  have hold := c.soldTo_nonneg o
  rcases hroom with hsame | hroom
  · have hequal : c'.soldTo o = c.soldTo o := by simp [Client.soldTo, howner, hsame]
    omega
  · by_cases hnew : c'.owner = o ∧ 0 < c'.quotaBytes
    · have hnew' : c'.soldTo o = c'.quotaBytes := if_pos hnew
      have := hroom (howner ▸ hnew.1) hnew.2
      omega
    · have hnew' : c'.soldTo o = 0 := if_neg hnew
      omega

/-- Editing a client conserves the credit of every owner. -/
theorem conserves_editClient {actor : Actor} {clientId : String} {edit : ClientEdit} {now : ℤ}
    {r : Unit} (h : editClient actor clientId edit now s = (.ok r, t)) : Conserves o s t := by
  simp only [editClient, Actor.require, Tx.transaction_ok_iff, Tx.read_bind, Tx.demand_bind_iff,
    Tx.require_bind_iff, Tx.ofExcept_bind_iff] at h
  rcases h with ⟨c, hget, _, limit', _, quota', _, h⟩
  rcases Tx.bind_ok_iff.mp h with ⟨_, s', hcheck, h⟩
  simp only [Tx.ofExcept_bind_iff] at h
  rcases h with ⟨expires', _, manual', _, h⟩
  rcases Tx.bind_ok_iff.mp h with ⟨_, u, hchange, hwrite⟩
  rw [Tx.write_ok_iff] at hwrite
  subst hwrite
  generalize hc' : editedClient c limit' quota' expires' manual' = c' at hchange
  have howner : c'.owner = c.owner := by rw [← hc']; rfl
  -- the check of the quota does not change the store
  have hquota : s = s' ∧ (c'.quotaBytes = c.quotaBytes ∨
      (s.resourceCreditEnforced c.owner (some actor) = true → 0 < c'.quotaBytes →
        s.volumeOf c.owner (fun k => k ≠ clientId) + c'.quotaBytes ≤ s.volumeCredit c.owner)) := by
    rcases Tx.when_ok_iff.mp hcheck with ⟨hsome, hcheck⟩ | ⟨hnone, rfl⟩
    · rcases Option.ne_none_iff_exists'.mp hsome with ⟨q, rfl⟩
      have hq : c'.quotaBytes = q := by rw [← hc']; rfl
      rcases checkVolume_ok hcheck with ⟨rfl, hroom⟩
      exact ⟨rfl, .inr (by simpa [hq] using hroom)⟩
    · refine ⟨rfl, .inl ?_⟩
      rw [← hc', not_not.mp hnone]
      rfl
  rcases hquota with ⟨rfl, hroom⟩
  have hplan : Conserves o s u ∧ u.clients = s.clients ∧ u.admins = s.admins ∧
      u.volumeCredit o = s.volumeCredit o := by
    rcases Tx.when_ok_iff.mp hchange with ⟨_, hchange⟩ | ⟨_, rfl⟩
    · rcases Tx.bind_ok_iff.mp hchange with ⟨_, _, hbody, hreturn⟩
      rcases Tx.pure_ok_iff.mp hreturn with ⟨_, rfl⟩
      exact conserves_changed (change_ok hbody)
    · exact ⟨.refl o s, rfl, rfl, rfl⟩
  rcases hplan with ⟨hconserves, hclients, hadmins, hcredit⟩
  refine hconserves.trans (Conserves.of_volume (s := u) ?_ ?_ ?_ fun hu => ?_)
  · rfl
  · rfl
  · rfl
  · rw [← hclients] at hget
    refine soldVolume_edit hu hget rfl (hroom.imp id fun hroom ho hpos => ?_) howner
    subst ho
    have henforced : s.resourceCreditEnforced c.owner (some actor) = true := by
      have hreseller := hu.reseller
      rw [hadmins] at hreseller
      simp [Store.resourceCreditEnforced, hreseller]
    rw [hcredit]
    simpa [Store.volumeOf, hclients] using hroom henforced hpos

/-- Deleting a client conserves the credit of every owner. -/
theorem conserves_deleteClient {actor : Actor} {clientId : String} {r : Unit}
    (h : deleteClient actor clientId s = (.ok r, t)) : Conserves o s t := by
  simp only [deleteClient, Actor.require, Tx.transaction_ok_iff, Tx.read_bind,
    Tx.demand_bind_iff, Tx.require_bind_iff, Tx.write_ok_iff] at h
  rcases h with ⟨c, hget, _, rfl⟩
  refine Conserves.of_volume (s := s) ?_ ?_ ?_ fun hs => ?_
  · rfl
  · rfl
  · rfl
  · have hsold := soldVolume_erase (o := o) (t := { s with clients := s.clients.erase clientId })
      hget rfl
    have hvolume := hs.volume
    have hold := c.soldTo_nonneg o
    omega

/-- One item of a bulk edit conserves the credit. -/
theorem conserves_bulkRow {actor : Actor} {seen : List String} {item : BulkEdit} {r : Unit}
    (h : bulkRow actor seen item s = (.ok r, t)) : Conserves o s t := by
  rcases item with ⟨clientId, requested, now⟩
  simp only [bulkRow] at h
  split at h
  · simp only [demandPolicy, Tx.require_bind_iff] at h
    exact conserves_editClient h.2.2
  · simp at h

/-- The loop over the rows of a bulk edit conserves the credit of every owner. -/
theorem conserves_bulkLoop {actor : Actor} {edits : List BulkEdit} :
    ∀ {seen : List String} {errors r : Table Value String} {s : Store},
      bulkLoop actor edits seen errors s = (.ok r, t) → Conserves o s t := by
  induction edits with
  | nil =>
      intro seen errors r s h
      rw [bulkLoop, Tx.pure_ok_iff] at h
      rcases h with ⟨_, rfl⟩
      exact .refl o s
  | cons item edits ih =>
      intro seen errors r s h
      rw [bulkLoop, Tx.bind_ok_iff] at h
      rcases h with ⟨failed, u, hitem, hrest⟩
      have hfirst : Conserves o s u := by
        rcases bulkItem_ok hitem with ⟨_, hrow⟩ | ⟨_, _, rfl⟩
        · exact conserves_bulkRow hrow
        · exact .refl o u
      exact hfirst.trans (ih hrest)

/-! ## Calls and sequences of calls -/

/-- Every call conserves the credit of every owner, whether it returns or raises. -/
theorem Call.conserves (call : Call) (o : String) (s : Store) : Conserves o s (call.run s).2 := by
  rcases hrun : call.run s with ⟨e | r, t⟩
  · rw [call.atomic s e t hrun]
    exact .refl o s
  · cases call with
    | registerOwner actor owner volume unlimited maxClients manual quota uuid =>
        exact conserves_registerOwner hrun
    | adjustResourceCredit actor owner volume units eventId =>
        rcases Tx.bind_ok_iff.mp hrun with ⟨_, _, hbody, hreturn⟩
        rcases Tx.pure_ok_iff.mp hreturn with ⟨_, rfl⟩
        exact conserves_adjustResourceCredit hbody
    | registerClient actor clientId owner limitIp quota price orderId expiresAt days now =>
        rcases Tx.bind_ok_iff.mp hrun with ⟨_, _, hbody, hreturn⟩
        rcases Tx.pure_ok_iff.mp hreturn with ⟨_, rfl⟩
        exact conserves_registerClient hbody
    | editClient actor clientId edit now => exact conserves_editClient hrun
    | editClientsMany actor edits =>
        rcases Tx.bind_ok_iff.mp hrun with ⟨_, _, hbody, hreturn⟩
        rcases Tx.pure_ok_iff.mp hreturn with ⟨_, rfl⟩
        simp only [Policy.editClientsMany, demandPolicy, Tx.require_bind_iff, Tx.transaction_ok_iff]
          at hbody
        exact conserves_bulkLoop hbody.2
    | deleteClient actor clientId => exact conserves_deleteClient hrun

/-- One call, returned or raised, as a step of the store. -/
def CallStep (s : Store) (call : Call) (t : Store) : Prop :=
  (call.run s).2 = t

/-- Every run conserves the credit. -/
theorem conserves_run {calls : List Call} (hrun : Run CallStep s calls t) (h : Balanced o s) :
    Balanced o t ∧ s.spent o ≤ t.spent o := by
  induction hrun with
  | nil => exact ⟨h, le_rfl⟩
  | @snoc _ u v call _ hcall ih =>
      rcases ih with ⟨hu, hspent⟩
      have hconserves := call.conserves o u
      rw [show (call.run u).2 = v from hcall] at hconserves
      rcases hconserves hu with ⟨hv, hspent'⟩
      exact ⟨hv, hspent.trans hspent'⟩

/-- The credit of a representative after a sequence of calls. -/
structure CreditConserved (o : String) (s : Store) : Prop where
  ledger : (s.resourceCreditLedger.total fun _ r => if r.owner = o then r.unlimitedUnits else 0) =
    (s.owners.get? o).elim 0 fun r => r.unlimitedCredit - r.unlimitedSpent
  within : ∀ r, s.owners.get? o = some r →
    0 ≤ r.unlimitedSpent ∧ r.unlimitedSpent ≤ r.unlimitedCredit
  volume : (s.clients.total fun _ c => if c.owner = o ∧ 0 < c.quotaBytes then c.quotaBytes else 0) ≤
    (s.owners.get? o).elim 0 Owner.volumeCreditBytes
  /-- No later call returns spent units. -/
  monotone : ∀ later t, Run CallStep s later t → s.spent o ≤ t.spent o
  /-- A call that raises changes nothing. -/
  failed : ∀ (call : Call) e t, call.run s = (.error e, t) → t = s
  /-- Neither does a row of a bulk edit that fails, in whatever state it is reached. -/
  failedRow : ∀ actor seen item e u t, bulkItem actor seen item u = (.ok (some e), t) → t = u

/-- Resource-credit conservation for a representative: after every sequence of
calls from a fresh store the ledger sums up to the unspent credit, the spent units
are within the credit, the sold volume is within the volume credit, spent units
never come back, and what fails changes nothing. -/
theorem resource_credit_conserved {o : String} {admins : String → Option Role}
    {calls : List Call} {s : Store} (hrole : admins o = some .reseller)
    (hrun : Run CallStep (Store.fresh admins) calls s) : CreditConserved o s := by
  rcases conserves_run hrun (balanced_fresh hrole) with ⟨h, _⟩
  refine ⟨h.ledger, ?_, h.volume, ?_, ?_, ?_⟩
  · intro r hr
    have hspent := h.spent
    have hunspent := h.unspent
    simp only [Store.spent, Store.unspent, hr, Option.elim_some] at hspent hunspent
    omega
  · intro later t hlater
    exact (conserves_run hlater h).2
  · intro call e t hcall
    exact call.atomic s e t hcall
  · intro actor seen item e u t hitem
    exact bulkItem_failed hitem

/-- A representative with three units of credit sells two of them. -/
theorem resource_credit_conserved_sale :
    let panel : Actor := ⟨"panel", .owner, []⟩
    let grant : Call := .registerOwner panel "rep" (.int 0) (.int 3) (.int 0) .none .none "1"
    let sale : Call := .registerClient panel "client" "rep" (.int 2) (.int 0) (.int 0) .none (.int 0)
      (.int 30) 1000
    let s := (grant.run (Store.fresh fun id => if id = "rep" then some .reseller else none)).2
    let t := (sale.run s).2
    t.spent "rep" = 2 ∧ CreditConserved "rep" t := by
  intro panel grant sale s t
  have hrun : Run CallStep
      (Store.fresh fun id => if id = "rep" then some .reseller else none) [grant, sale] t :=
    (Run.single (e := grant) rfl).snoc (e := sale) rfl
  exact ⟨by decide, resource_credit_conserved rfl hrun⟩

end Policy
end DarkXray
