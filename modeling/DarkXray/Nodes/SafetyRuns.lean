import DarkXray.Library.Runs
import DarkXray.Nodes.RestoreSafety

/-!
# Runs of the imported users' eligibility

Reconciliations, reviews and suspensions alternate with the edits of others, while usage grows
and time passes.  What somebody else has disabled stays disabled until a suspension is set
or lifted, provided that nobody disables an enabled client between a suspension and the next
reconciliation.

Main results:

- Theorem {lit}`Sound.step`: what every event keeps.
- Theorem {lit}`restore_eligibility`: what holds after every reconciliation.
- Theorem {lit}`disabled_after_resume`: without the condition a disabled client is enabled again.
-/

namespace DarkXray
namespace Nodes

open Library

/-! ## The system -/

/-- The enable bit of a user's client. -/
def SafetyStore.enabledAt (s : SafetyStore) (id : String) : Bool :=
  ((s.users.get? id).bind s.client).any enabledIn

/-- The tables, and what has been done to the clients of the users. -/
structure SafetySystem where
  store : SafetyStore
  /-- The last reconciliation has left the client enabled. -/
  left : String → Bool
  /-- Since then somebody else has disabled it. -/
  overridden : String → Bool
  /-- A reconciliation has found it so, and no suspension was set or lifted since. -/
  held : String → Bool

/-- What can happen. -/
inductive SafetyEvent where
  | reconcile (now : ℚ) (records : List Core.Record)
  | review (id : String) (value : ReviewBody) (now : ℚ)
  | suspend (id : String) (value : SuspensionBody) (now : ℚ)
  /-- The ledger of the users' usage changes. -/
  | usage (ledger : RestoreUsage)
  /-- Another component writes the enable bit of a client. -/
  | edit (email : String) (value : Library.Doc)

variable (textTrue : String → Bool) (revision : RevisionKey → String)

namespace SafetySystem

/-- The tables after an edit. -/
def edited (s : SafetyStore) (email : String) (value : Library.Doc) : SafetyStore :=
  { s with core := s.core.update email fun row => { row with body := row.body.set "enable" value } }

/-- What an event does. -/
def next (w : SafetySystem) : SafetyEvent → SafetySystem
  | .reconcile now records =>
      let store := (reconcile textTrue true now records w.store).store
      { store
        left := store.enabledAt
        overridden := fun _ => false
        held := fun id => w.held id || w.overridden id }
  | .review id value now => { w with store := (reviewMetadata revision id value now w.store).2 }
  | .suspend id value now =>
      match setSuspension revision id value now w.store with
      | (.ok _, store) => { w with
          store
          overridden := fun id' => id' ≠ id && w.overridden id'
          held := fun id' => id' ≠ id && w.held id' }
      | (.error _, store) => { w with store }
  | .usage ledger => { w with store := { w.store with usage := ledger } }
  | .edit email value =>
      let store := edited w.store email value
      { w with
        store
        overridden := fun id =>
          if (w.store.users.get? id).map RestoreUser.coreEmail = some email then
            !store.enabledAt id && (w.overridden id || (w.left id && w.store.enabledAt id))
          else w.overridden id }

/-- The step relation. -/
def Step (w : SafetySystem) (e : SafetyEvent) (w' : SafetySystem) : Prop :=
  w.next textTrue revision e = w'

/-- Nobody else disables a client that the last reconciliation has left enabled, after a
suspension was set or lifted since: the row still expects the client to be enabled. -/
def Expected (w : SafetySystem) : SafetyEvent → Prop
  | .edit email value => ∀ r ∈ w.store.users.rows, r.2.live = true → r.2.coreEmail = email →
      w.left r.1 = true → w.store.enabledAt r.1 = true → value.truthy = false →
        (w.store.safety.get? r.1).any SafetyRow.expectedEnable = true
  | _ => True

instance decidableExpected (w : SafetySystem) (e : SafetyEvent) : Decidable (w.Expected e) :=
  match e with
  | .edit .. => inferInstanceAs (Decidable (∀ r ∈ _, _))
  | .reconcile .. => .isTrue trivial
  | .review .. => .isTrue trivial
  | .suspend .. => .isTrue trivial
  | .usage .. => .isTrue trivial

/-- Before the first event nothing has been done.  No two users share a client. -/
structure Opening (w : SafetySystem) : Prop where
  emails : (w.store.users.rows.map fun r => r.2.coreEmail).Nodup
  times : ∀ r ∈ w.store.users.rows, 0 ≤ r.2.promotedAt ∧ 0 ≤ r.2.deletedAt
  overridden : ∀ id, w.overridden id = false
  held : ∀ id, w.held id = false

/-- What every event keeps: what has been found is remembered, and what has not been found yet can
still be. -/
structure Sound (w : SafetySystem) : Prop where
  emails : (w.store.users.rows.map fun r => r.2.coreEmail).Nodup
  times : ∀ r ∈ w.store.users.rows, 0 ≤ r.2.promotedAt ∧ 0 ≤ r.2.deletedAt
  held : ∀ id user, w.store.users.get? id = some user → user.live = true → w.held id = true →
    ∃ safety, w.store.safety.get? id = some safety ∧ safety.externalDisabled = true
  overridden : ∀ id user, w.store.users.get? id = some user → user.live = true →
    w.overridden id = true → ∃ safety row, w.store.safety.get? id = some safety ∧
      safety.expectedEnable = true ∧ w.store.core.get? user.coreEmail = some row ∧
        enabledIn row.body = false

/-- Every live user with a client is enabled exactly if it is eligible by what is stored. -/
def Enforced (now : ℚ) (s : SafetyStore) : Prop :=
  ∀ id user row, s.users.get? id = some user → user.live = true →
    s.core.get? user.coreEmail = some row → ∃ safety, s.safety.get? id = some safety ∧
      (enabledIn row.body = true ↔ decision user safety.metadataState safety.externalDisabled
        (some row.body) (s.used id) now = .eligible) ∧
      (enabledIn row.body = true ↔
        Entitled user safety.metadataState safety.externalDisabled (s.used id) now)

/-- What somebody else has disabled is disabled. -/
def Retained (w : SafetySystem) : Prop :=
  ∀ id user row, w.store.users.get? id = some user → user.live = true →
    w.store.core.get? user.coreEmail = some row → w.held id = true → enabledIn row.body = false

end SafetySystem

/-- A client that is no live user's. -/
def SafetyStore.Native (s : SafetyStore) (email : String) : Prop :=
  ∀ id user, s.users.get? id = some user → user.live = true → user.coreEmail ≠ email

/-! ## What the transactions do -/

section Transactions

variable {revision} {s : SafetyStore} {id : String} {now : ℚ}

/-- The checks only read. -/
theorem wp_editable {expectedRevision stale : String} :
    (editable revision id expectedRevision stale).wp
      (fun x t => t = s ∧ s.users.get? id = some x.1 ∧ x.1.deletedAt ≤ 0 ∧ x.1.promotedAt ≤ 0 ∧
        s.safety.get? id = some x.2) (fun _ t => t = s) s := by
  unfold editable
  simp only [Tx.wp_bind, Tx.wp_read, Tx.wp_demand, Tx.wp_require, Tx.wp_pure, not_lt, true_and,
    implies_true, and_true]
  exact fun r hrow hdeleted hpromoted safety hsafety _ => ⟨hrow, hdeleted, hpromoted, hsafety⟩

/-- The store after a suspension is set or lifted. -/
def suspended (s : SafetyStore) (id : String) (value : SuspensionBody) (now : ℚ) : SafetyStore :=
  { s with
    users := s.users.update id fun u => { u with enabled := !value.suspended, updatedAt := now }
    safety := s.safety.update id fun row => { row with
      externalDisabled := false
      expectedEnable := false }
    log := s.log ++ [⟨id, .suspension value.suspended, now⟩] }

/-- A suspension writes one row. -/
theorem wp_setSuspension {value : SuspensionBody} :
    (setSuspension revision id value now).wp (fun _ t => t = suspended s id value now)
      (fun _ t => t = s) s := by
  unfold setSuspension
  rw [Tx.wp_transaction]
  unfold suspensionTx noteEvent
  rw [Tx.wp_bind]
  refine Tx.wp_mono wp_editable ?_ fun _ _ _ => rfl
  rintro ⟨r, safety⟩ t ⟨rfl, -⟩
  simp only [Tx.wp_bind, Tx.wp_write]
  rfl

/-- The store after a review, for a client with a body. -/
def reviewed (s : SafetyStore) (id : String) (r : RestoreUser) (body : Core.Record)
    (value : ReviewBody) (now : ℚ) : SafetyStore :=
  { s with
    core := s.core.update r.coreEmail fun row => { row with body := body }
    users := s.users.update id fun u => { u with
      legacyUpload := value.data.upload
      legacyDownload := value.data.download
      legacyTotal := value.data.total
      legacyExpire := value.data.expire
      scanStatus := "verified"
      scanError := ""
      updatedAt := now }
    safety := s.safety.update id fun row => { row with
      metadataState := .manual
      checkedAt := now
      note := Access.strip value.note }
    log := s.log ++ [⟨id, .reviewed r.data value.data (Access.strip value.note), now⟩] }

/-- A review is of a user that is not promoted or archived, and it keeps the enable bit. -/
theorem wp_reviewMetadata {value : ReviewBody} :
    (reviewMetadata revision id value now).wp
      (fun _ t => ∃ r row body, s.users.get? id = some r ∧ r.deletedAt ≤ 0 ∧ r.promotedAt ≤ 0 ∧
        s.core.get? r.coreEmail = some row ∧ enabledIn body = enabledIn row.body ∧
          t = reviewed s id r body value now)
      (fun _ t => t = s) s := by
  unfold reviewMetadata
  simp only [Tx.wp_bind, Tx.wp_require, Tx.wp_transaction, implies_true, and_true]
  intro _ _
  unfold reviewTx noteEvent
  rw [Tx.wp_bind]
  refine Tx.wp_mono wp_editable ?_ fun _ _ _ => trivial
  rintro ⟨r, safety⟩ t ⟨rfl, hrow, hdeleted, hpromoted, -⟩
  simp only [Tx.wp_bind, Tx.wp_read, Tx.wp_demand, Tx.wp_write, implies_true, and_true]
  intro row hcore
  refine ⟨r, row, _, hrow, hdeleted, hpromoted, hcore, ?_, rfl⟩
  unfold enabledIn Core.Record.set Library.Doc.getD
  simp (disch := decide) only [Library.Doc.get?_set_of_ne]

end Transactions

/-! ## What every event keeps -/

namespace SafetySystem

section Steps

variable {textTrue} {revision} {w w' : SafetySystem}

/-- The books are sound at the start. -/
theorem Opening.sound (h : w.Opening) : w.Sound where
  emails := h.emails
  times := h.times
  held := fun id user _ _ hheld => by
    rw [h.held] at hheld
    cases hheld
  overridden := fun id user _ _ hoverridden => by
    rw [h.overridden] at hoverridden
    cases hoverridden

/-- A reconciliation keeps the books sound. -/
theorem Sound.reconcile (h : w.Sound) (now : ℚ) (records : List Core.Record) :
    (w.next textTrue revision (.reconcile now records)).Sound where
  emails := by
    unfold next
    rw [reconcile_users]
    exact h.emails
  times := by
    unfold next
    rw [reconcile_users]
    exact h.times
  held := by
    intro id user hrow hlive hheld
    unfold next at hrow hheld ⊢
    rw [reconcile_users] at hrow
    obtain ⟨safety, hseeded, hsafety, -⟩ :=
      reconcile_user textTrue now records h.emails hrow hlive
    refine ⟨_, hsafety, ?_⟩
    rw [(leftSafety_eq _ now).2.1]
    rcases Bool.or_eq_true_iff.mp hheld with hheld | hoverridden
    · obtain ⟨old, hold, hexternal⟩ := h.held id user hrow hlive hheld
      obtain rfl := Option.some.inj (hseeded.symm.trans (seeded_of_some textTrue hold))
      show (_ || _) = true
      rw [hexternal, Bool.true_or]
    · obtain ⟨old, row, hold, hexpected, hcore, hdisabled⟩ :=
        h.overridden id user hrow hlive hoverridden
      obtain rfl := Option.some.inj (hseeded.symm.trans (seeded_of_some textTrue hold))
      have hclient : w.store.client user = some row.body := by
        unfold SafetyStore.client
        rw [hcore]
        rfl
      show (_ || _) = true
      rw [hclient, hexpected, Option.any_some, hdisabled]
      exact Bool.or_true _
  overridden := by
    intro id user _ _ hoverridden
    cases hoverridden

/-- The flag that has been set is the one that counts. -/
theorem enabledIn_set (c : Core.Record) (value : Library.Doc) :
    enabledIn (c.set "enable" value) = value.truthy := by
  unfold enabledIn Core.Record.set Library.Doc.getD
  rw [Library.Doc.get?_set c.isDict, if_pos rfl]
  rfl

/-- Whether the core has a user enabled. -/
theorem enabledAt_eq {s : SafetyStore} {id : String} {user : RestoreUser}
    (hrow : s.users.get? id = some user) :
    s.enabledAt id = (s.core.get? user.coreEmail).any fun row => enabledIn row.body := by
  unfold SafetyStore.enabledAt SafetyStore.client
  rw [hrow, Option.bind_some]
  cases s.core.get? user.coreEmail <;> rfl

/-- An expected edit keeps the books sound. -/
theorem Sound.edit {email : String} {value : Library.Doc} (h : w.Sound)
    (hok : w.Expected (.edit email value)) :
    (w.next textTrue revision (.edit email value)).Sound where
  emails := h.emails
  times := h.times
  held := h.held
  overridden := by
    intro id user hrow hlive hoverridden
    have hrow' : w.store.users.get? id = some user := hrow
    have hcore : (w.next textTrue revision (.edit email value)).store.core.get? user.coreEmail =
        if user.coreEmail = email then (w.store.core.get? email).map fun row =>
          { row with body := row.body.set "enable" value }
        else w.store.core.get? user.coreEmail := by
      unfold next edited
      dsimp only
      rw [Table.get?_update]
      split
      · rename_i he
        rw [he]
      · rfl
    by_cases he : user.coreEmail = email
    · rw [if_pos he] at hcore
      simp only [next] at hoverridden
      rw [hrow', Option.map_some, he, if_pos rfl, Bool.and_eq_true, Bool.not_eq_true',
        enabledAt_eq (s := edited w.store email value) hrow'] at hoverridden
      obtain ⟨hdisabled, hwas⟩ := hoverridden
      have hcore' : (edited w.store email value).core.get? user.coreEmail =
          (w.store.core.get? email).map fun row =>
            { row with body := row.body.set "enable" value } := hcore
      rw [hcore'] at hdisabled
      have hafter : ∀ row, w.store.core.get? email = some row → value.truthy = false := by
        intro row hget
        rw [hget] at hdisabled
        simpa [enabledIn_set] using hdisabled
      rcases Bool.or_eq_true_iff.mp hwas with hbefore | hleft
      · obtain ⟨safety, row, hsafety, hexpected, hget, -⟩ :=
          h.overridden id user hrow' hlive hbefore
        rw [he] at hget
        refine ⟨safety, { row with body := row.body.set "enable" value }, hsafety, hexpected, ?_, ?_⟩
        · rw [hcore, hget]
          rfl
        · exact (enabledIn_set _ _).trans (hafter row hget)
      · obtain ⟨hleft, henabled⟩ := Bool.and_eq_true_iff.mp hleft
        have henabled' := henabled
        rw [enabledAt_eq hrow', he] at henabled'
        obtain ⟨row, hget, -⟩ := (Option.any_eq_true _ _).mp henabled'
        have hexpects := hok (id, user) (Table.get?_eq_some_iff.mp hrow') hlive he hleft henabled
          (hafter row hget)
        obtain ⟨safety, hsafety, hexpected⟩ := (Option.any_eq_true _ _).mp hexpects
        refine ⟨safety, { row with body := row.body.set "enable" value }, hsafety, hexpected, ?_, ?_⟩
        · rw [hcore, hget]
          rfl
        · exact (enabledIn_set _ _).trans (hafter row hget)
    · rw [if_neg he] at hcore
      simp only [next] at hoverridden
      rw [hrow', Option.map_some, if_neg (fun heq => he (Option.some.inj heq))] at hoverridden
      rw [hcore]
      exact h.overridden id user hrow' hlive hoverridden

/-- A change of users that keeps their clients and whether they are live. -/
structure Keeps (g : RestoreUser → RestoreUser) : Prop where
  coreEmail : ∀ r, (g r).coreEmail = r.coreEmail
  promotedAt : ∀ r, (g r).promotedAt = r.promotedAt
  deletedAt : ∀ r, (g r).deletedAt = r.deletedAt

/-- A user after such a change was one before. -/
theorem Keeps.user {t : Table String RestoreUser} {id id' : String} {g : RestoreUser → RestoreUser}
    {user : RestoreUser} (hg : Keeps g) (h : (t.update id g).get? id' = some user) :
    ∃ old, t.get? id' = some old ∧ user.coreEmail = old.coreEmail ∧ user.live = old.live := by
  rw [Table.get?_update] at h
  split at h
  · obtain ⟨old, hold, rfl⟩ := Option.map_eq_some_iff.mp h
    refine ⟨old, hold, hg.coreEmail old, ?_⟩
    unfold RestoreUser.live
    rw [hg.promotedAt, hg.deletedAt]
  · exact ⟨user, h, rfl, rfl⟩

/-- A change that keeps the identity of a user keeps all e-mails. -/
theorem Keeps.emails {t : Table String RestoreUser} {id : String} {g : RestoreUser → RestoreUser}
    (hg : Keeps g) :
    ((t.update id g).rows.map fun r => r.2.coreEmail) = t.rows.map fun r => r.2.coreEmail := by
  unfold Table.update Table.mapRows
  rw [List.map_map]
  apply List.map_congr_left
  intro r _
  dsimp only [Function.comp]
  split
  · exact hg.coreEmail r.2
  · rfl

/-- A change that keeps the identity of a user keeps the times. -/
theorem Keeps.times {t : Table String RestoreUser} {id : String} {g : RestoreUser → RestoreUser}
    (hg : Keeps g) (h : ∀ r ∈ t.rows, 0 ≤ r.2.promotedAt ∧ 0 ≤ r.2.deletedAt) :
    ∀ r ∈ (t.update id g).rows, 0 ≤ r.2.promotedAt ∧ 0 ≤ r.2.deletedAt := by
  intro r hr
  unfold Table.update Table.mapRows at hr
  obtain ⟨old, hold, rfl⟩ := List.mem_map.mp hr
  dsimp only
  split
  · rw [hg.promotedAt, hg.deletedAt]
    exact h old hold
  · exact h old hold

/-- A suspension keeps the identity of a user. -/
theorem keeps_suspended (value : SuspensionBody) (now : ℚ) :
    Keeps fun u => { u with enabled := !value.suspended, updatedAt := now } :=
  ⟨fun _ => rfl, fun _ => rfl, fun _ => rfl⟩

/-- A review keeps the identity of a user. -/
theorem keeps_reviewed (value : ReviewBody) (now : ℚ) :
    Keeps fun u => { u with
      legacyUpload := value.data.upload
      legacyDownload := value.data.download
      legacyTotal := value.data.total
      legacyExpire := value.data.expire
      scanStatus := "verified"
      scanError := ""
      updatedAt := now } :=
  ⟨fun _ => rfl, fun _ => rfl, fun _ => rfl⟩

/-- What a suspension does: nothing, or it lets go of one user. -/
theorem suspend_cases (w : SafetySystem) (id : String) (value : SuspensionBody) (now : ℚ) :
    w.next textTrue revision (.suspend id value now) = w ∨
      w.next textTrue revision (.suspend id value now) = { w with
        store := Nodes.suspended w.store id value now
        overridden := fun id' => id' ≠ id && w.overridden id'
        held := fun id' => id' ≠ id && w.held id' } := by
  have hwp : (setSuspension revision id value now).wp
      (fun _ t => t = Nodes.suspended w.store id value now) (fun _ t => t = w.store) w.store :=
    wp_setSuspension
  rcases hresult : setSuspension revision id value now w.store with ⟨_ | u, t⟩
  · have ht := Tx.wp_error hwp hresult
    refine Or.inl ?_
    simp only [next, hresult, ht]
  · have ht := Tx.wp_ok hwp hresult
    refine Or.inr ?_
    simp only [next, hresult, ht]

/-- A suspension keeps the books sound. -/
theorem Sound.suspended (h : w.Sound) (id : String) (value : SuspensionBody) (now : ℚ) :
    (w.next textTrue revision (.suspend id value now)).Sound := by
  rcases suspend_cases w id value now with hsame | hnext
  · rw [hsame]
    exact h
  rw [hnext]
  have hother : ∀ {id' : String} {b : Bool}, (decide (id' ≠ id) && b) = true →
      id' ≠ id ∧ b = true := by
    intro id' b hb
    simpa using hb
  refine ⟨?_, (keeps_suspended value now).times h.times, ?_, ?_⟩
  · exact (congrArg List.Nodup (keeps_suspended value now).emails).mpr h.emails
  · intro id' user hrow hlive hheld
    obtain ⟨hne, hheld⟩ := hother hheld
    obtain ⟨old, hold, -, holdlive⟩ := (keeps_suspended value now).user hrow
    obtain ⟨safety, hsafety, hexternal⟩ := h.held id' old hold (holdlive ▸ hlive) hheld
    refine ⟨safety, ?_, hexternal⟩
    show (Table.update _ _ _).get? id' = _
    rw [Table.get?_update, if_neg hne]
    exact hsafety
  · intro id' user hrow hlive hoverridden
    obtain ⟨hne, hoverridden⟩ := hother hoverridden
    obtain ⟨old, hold, hemail, holdlive⟩ := (keeps_suspended value now).user hrow
    obtain ⟨safety, row, hsafety, hexpected, hcore, hdisabled⟩ :=
      h.overridden id' old hold (holdlive ▸ hlive) hoverridden
    refine ⟨safety, row, ?_, hexpected, hemail ▸ hcore, hdisabled⟩
    show (Table.update _ _ _).get? id' = _
    rw [Table.get?_update, if_neg hne]
    exact hsafety

/-- What a review does: nothing, or it writes the row of one user. -/
theorem review_cases (w : SafetySystem) (id : String) (value : ReviewBody) (now : ℚ) :
    w.next textTrue revision (.review id value now) = w ∨
      ∃ r row body, w.store.users.get? id = some r ∧ r.deletedAt ≤ 0 ∧ r.promotedAt ≤ 0 ∧
        w.store.core.get? r.coreEmail = some row ∧ enabledIn body = enabledIn row.body ∧
        w.next textTrue revision (.review id value now) =
          { w with store := Nodes.reviewed w.store id r body value now } := by
  have hwp : (reviewMetadata revision id value now).wp
      (fun _ t => ∃ r row body, w.store.users.get? id = some r ∧ r.deletedAt ≤ 0 ∧
        r.promotedAt ≤ 0 ∧ w.store.core.get? r.coreEmail = some row ∧
          enabledIn body = enabledIn row.body ∧ t = Nodes.reviewed w.store id r body value now)
      (fun _ t => t = w.store) w.store :=
    wp_reviewMetadata
  rcases hresult : reviewMetadata revision id value now w.store with ⟨_ | u, t⟩
  · have ht := Tx.wp_error hwp hresult
    refine Or.inl ?_
    simp only [next, hresult, ht]
  · obtain ⟨r, row, body, hrow, hdeleted, hpromoted, hcore, hbody, ht⟩ := Tx.wp_ok hwp hresult
    refine Or.inr ⟨r, row, body, hrow, hdeleted, hpromoted, hcore, hbody, ?_⟩
    simp only [next, hresult, ht]

/-- A review keeps the books sound. -/
theorem Sound.reviewed (h : w.Sound) (id : String) (value : ReviewBody) (now : ℚ) :
    (w.next textTrue revision (.review id value now)).Sound := by
  rcases review_cases w id value now with
    hsame | ⟨r, row, body, hr, -, -, hrow, hbody, hnext⟩
  · rw [hsame]
    exact h
  rw [hnext]
  -- The two flags are kept in every row.
  have hsafety : ∀ id' (safety : SafetyRow), w.store.safety.get? id' = some safety →
      ∃ safety', (Nodes.reviewed w.store id r body value now).safety.get? id' = some safety' ∧
        safety'.externalDisabled = safety.externalDisabled ∧
        safety'.expectedEnable = safety.expectedEnable := by
    intro id' safety hget
    unfold Nodes.reviewed
    dsimp only
    rw [Table.get?_update]
    split
    · rw [hget]
      exact ⟨_, rfl, rfl, rfl⟩
    · exact ⟨safety, hget, rfl, rfl⟩
  refine ⟨?_, (keeps_reviewed value now).times h.times, ?_, ?_⟩
  · exact (congrArg List.Nodup (keeps_reviewed value now).emails).mpr h.emails
  · intro id' user huser hlive hheld
    obtain ⟨old, hold, -, holdlive⟩ := (keeps_reviewed value now).user huser
    obtain ⟨safety, hget, hexternal⟩ := h.held id' old hold (holdlive ▸ hlive) hheld
    obtain ⟨safety', hget', hkept, -⟩ := hsafety id' safety hget
    exact ⟨safety', hget', hkept.trans hexternal⟩
  · intro id' user huser hlive hoverridden
    obtain ⟨old, hold, hemail, holdlive⟩ := (keeps_reviewed value now).user huser
    obtain ⟨safety, client, hget, hexpected, hclient, hdisabled⟩ :=
      h.overridden id' old hold (holdlive ▸ hlive) hoverridden
    obtain ⟨safety', hget', -, hkept⟩ := hsafety id' safety hget
    rw [hemail]
    by_cases he : old.coreEmail = r.coreEmail
    · refine ⟨safety', { row with body := body }, hget', hkept.trans hexpected, ?_, ?_⟩
      · show (Table.update _ _ _).get? old.coreEmail = _
        rw [Table.get?_update, if_pos he, he, hrow]
        rfl
      · rw [he, hrow] at hclient
        obtain rfl := Option.some.inj hclient
        exact hbody.trans hdisabled
    · refine ⟨safety', client, hget', hkept.trans hexpected, ?_, hdisabled⟩
      show (Table.update _ _ _).get? old.coreEmail = _
      rw [Table.get?_update, if_neg he]
      exact hclient

/-- What every event keeps. -/
theorem Sound.step {e : SafetyEvent} (h : w.Sound) (hstep : Step textTrue revision w e w')
    (hok : w.Expected e) : w'.Sound := by
  cases hstep
  cases e with
  | reconcile now records => exact h.reconcile now records
  | review id value now => exact h.reviewed id value now
  | suspend id value now => exact h.suspended id value now
  | usage ledger => exact ⟨h.emails, h.times, h.held, h.overridden⟩
  | edit email value => exact h.edit hok

/-! ## What holds after a reconciliation -/

/-- A reconciliation writes what is decided by what it stores. -/
theorem enforced_reconcile (hemails : (w.store.users.rows.map fun r => r.2.coreEmail).Nodup)
    (now : ℚ) (records : List Core.Record) :
    Enforced now (reconcile textTrue true now records w.store).store := by
  intro id user row hrow hlive hcore
  rw [reconcile_users] at hrow
  obtain ⟨safety, -, hsafety, hwritten⟩ :=
    reconcile_user textTrue now records hemails hrow hlive
  rw [hwritten] at hcore
  obtain ⟨old, hold, rfl⟩ := Option.map_eq_some_iff.mp hcore
  have hclient : w.store.client user = some old.body := by
    unfold SafetyStore.client
    rw [hold]
    rfl
  have hused : (reconcile textTrue true now records w.store).store.used id = w.store.used id := by
    unfold SafetyStore.used
    rw [reconcile_usage]
  obtain ⟨hstate, hexternal, -, -⟩ :=
    leftSafety_eq (judge now (w.store.used id) id user safety (w.store.client user)) now
  have henforced : enabledIn ((judge now (w.store.used id) id user safety
      (w.store.client user)).newClient old.body) = true ↔
        decision user (judge now (w.store.used id) id user safety (w.store.client user)).state
          (judge now (w.store.used id) id user safety (w.store.client user)).external
          (some ((judge now (w.store.used id) id user safety
            (w.store.client user)).newClient old.body)) (w.store.used id) now = .eligible := by
    rw [enabledIn_newClient]
    unfold Judged.desired
    rw [decide_eq_true_eq]
    have hsame : (w.store.client user).isNone = (some ((judge now (w.store.used id) id user safety
        (w.store.client user)).newClient old.body)).isNone := by
      rw [hclient]
      rfl
    rw [← decision_congr hsame]
    rfl
  refine ⟨_, hsafety, ?_⟩
  rw [hstate, hexternal, hused]
  exact ⟨henforced, henforced.trans (decision_eligible_iff hlive)⟩

/-- What somebody else has disabled is found, and is disabled after the reconciliation. -/
theorem Sound.retained (h : w.Sound) (now : ℚ) (records : List Core.Record) :
    (w.next textTrue revision (.reconcile now records)).Retained := by
  intro id user row hrow hlive hcore hheld
  obtain ⟨safety, hsafety, hexternal⟩ :=
    (Sound.reconcile h now records).held id user hrow hlive hheld
  obtain ⟨safety', hsafety', -, hentitled⟩ :=
    enforced_reconcile h.emails now records id user row hrow hlive hcore
  obtain rfl := Option.some.inj (hsafety.symm.trans hsafety')
  rw [← Bool.not_eq_true]
  intro henabled
  have hnot := (hentitled.mp henabled).external
  rw [hexternal] at hnot
  cases hnot

/-- Only an edit by others changes the client of somebody who is no live user. -/
theorem Sound.native {e : SafetyEvent} {email : String} (h : w.Sound)
    (hown : ∀ email value, e ≠ .edit email value) (hnative : w.store.Native email) :
    (w.next textTrue revision e).store.core.get? email = w.store.core.get? email := by
  cases e with
  | reconcile now records => exact reconcile_core_other textTrue now records hnative
  | review id value now =>
      rcases review_cases w id value now with
        hsame | ⟨r, row, body, hr, hdeleted, hpromoted, -, -, hnext⟩
      · rw [hsame]
      rw [hnext]
      have htimes := h.times _ (Table.get?_eq_some_iff.mp hr)
      have hlive : r.live = true := by
        unfold RestoreUser.live
        rw [le_antisymm hpromoted htimes.1, le_antisymm hdeleted htimes.2]
        rfl
      show (Table.update _ _ _).get? email = _
      rw [Table.get?_update, if_neg (Ne.symm (hnative id r hr hlive))]
  | suspend id value now =>
      rcases suspend_cases w id value now with hsame | hnext
      · rw [hsame]
      · rw [hnext]
        rfl
  | usage ledger => rfl
  | edit email value => exact (hown email value rfl).elim

end Steps

/-- The eligibility of the imported users.  In every run in which nobody disables an enabled
client between a suspension and the next reconciliation: no event but an edit of others
changes a native client, and after every reconciliation each live user is enabled exactly if it
is eligible by what is stored, what others have disabled is disabled, a second reconciliation
changes nothing, and no native record was changed. -/
theorem restore_eligibility {w₀ w w' : SafetySystem} {es : List SafetyEvent} {e : SafetyEvent}
    (hopen : w₀.Opening) (hrun : Run (Guarded (Step textTrue revision) Expected) w₀ es w)
    (hstep : Step textTrue revision w e w') :
    ((∀ email value, e ≠ .edit email value) → ∀ email, w.store.Native email →
      w'.store.core.get? email = w.store.core.get? email) ∧
    ∀ now records, e = .reconcile now records →
      Enforced now w'.store ∧ w'.Retained ∧
      (∀ records', (reconcile textTrue true now records' w'.store).store = w'.store ∧
        (reconcile textTrue true now records' w'.store).changed = 0) ∧
      ∀ (place : ℕ) (r : Core.Record), records[place]? = some r →
        (∀ email, emailOf r = some email → w.store.Native email) →
          (reconcile textTrue true now records w.store).records[place]? = some r := by
  have hsound : w.Sound :=
    hrun.invariant hopen.sound fun _ _ _ h hguarded => h.step hguarded.1 hguarded.2
  refine ⟨fun hown email hnative => ?_, ?_⟩
  · cases hstep
    exact hsound.native hown hnative
  · rintro now records rfl
    cases hstep
    refine ⟨enforced_reconcile hsound.emails now records, hsound.retained now records,
      fun records' => reconcile_again textTrue records records' hsound.emails, ?_⟩
    intro place r hr hnative
    apply reconcile_records_other textTrue hr
    intro id user hrow hlive hemail
    exact hnative _ hemail id user hrow hlive rfl

end SafetySystem

/-! ## A client that is disabled after a resume -/

/-- A user whose data are confirmed, without limits. -/
def confirmedUser : RestoreUser where
  coreEmail := "restore_1@dark.restore"
  legacyUpload := 0
  legacyDownload := 0
  legacyTotal := 0
  legacyExpire := 0
  scanStatus := "verified"
  scanError := ""
  enabled := true
  promotedAt := 0
  deletedAt := 0
  createdAt := 0
  updatedAt := 0

/-- The client of the user. -/
def confirmedClient : Core.ClientRow where
  body := ⟨.dict [("email", Library.Doc.str "restore_1@dark.restore"),
    ("enable", Library.Doc.bool true)], rfl⟩
  inbounds := [1]
  up := 0
  down := 0

/-- One user, whose client is enabled. -/
def oneRestored : SafetySystem where
  store :=
    { users := Table.empty.insert "rst_1" confirmedUser
      safety := Table.empty
      usage := Table.empty
      core := Table.empty.insert "restore_1@dark.restore" confirmedClient
      log := [] }
  left := fun _ => false
  overridden := fun _ => false
  held := fun _ => false

/-- One restored user is a start. -/
theorem oneRestored_opening : oneRestored.Opening where
  emails := by decide
  times := by
    intro r hr
    obtain rfl := List.mem_singleton.mp hr
    exact ⟨le_refl 0, le_refl 0⟩
  overridden := fun _ => rfl
  held := fun _ => rfl

namespace SafetySystem

/-- A component disables the client after a reconciliation, the next one finds it disabled, and
it is enabled again from outside. -/
def disabledByOthers : List SafetyEvent :=
  [.reconcile 10 [], .edit "restore_1@dark.restore" (Library.Doc.bool false), .reconcile 20 [],
    .edit "restore_1@dark.restore" (Library.Doc.bool true)]

/-- The system after some events, with the guard checked at each. -/
def checked (w : SafetySystem) (es : List SafetyEvent) : Option SafetySystem :=
  es.foldlM (fun w e => if w.Expected e then some (w.next (fun _ => false) (fun _ => "") e)
    else none) w

/-- Events that are checked one by one form a run. -/
theorem run_checked {w w' : SafetySystem} {es : List SafetyEvent} (h : w.checked es = some w') :
    Run (Guarded (Step (fun _ => false) fun _ => "") Expected) w es w' :=
  (Run.of_guarded_eval h).mono fun _ _ _ hstep => ⟨Option.some.inj hstep.1, hstep.2⟩

/-- A client that others disabled is held at every reconciliation, also after it was enabled
again from outside. -/
theorem restore_eligibility_disabled : ∃ w w' : SafetySystem,
    Run (Guarded (Step (fun _ => false) fun _ => "") Expected) oneRestored disabledByOthers w ∧
      Step (fun _ => false) (fun _ => "") w (.reconcile 30 []) w' ∧
      w.store.enabledAt "rst_1" = true ∧ w'.held "rst_1" = true ∧
      Enforced 30 w'.store ∧ w'.Retained := by
  have heval : (oneRestored.checked disabledByOthers).map (fun w =>
      (w.store.enabledAt "rst_1", (w.next (fun _ => false) (fun _ => "")
        (.reconcile 30 [])).held "rst_1")) = some (true, true) := by
    decide +kernel
  obtain ⟨w, hrun, hobserved⟩ := Option.map_eq_some_iff.mp heval
  obtain ⟨henabled, hheld⟩ := Prod.mk.inj hobserved
  have hstep : Step (fun _ => false) (fun _ => "") w (.reconcile 30 [])
      (w.next (fun _ => false) (fun _ => "") (.reconcile 30 [])) := rfl
  have hafter := restore_eligibility (fun _ => false) (fun _ => "") oneRestored_opening
    (run_checked hrun) hstep
  obtain ⟨henforced, hretained, -, -⟩ := hafter.2 30 [] rfl
  exact ⟨w, _, run_checked hrun, hstep, henabled, hheld, henforced, hretained⟩

/-- The user is resumed, and a component disables its client before the next reconciliation. -/
def disabledAfterResume : List SafetyEvent :=
  [.reconcile 10 [], .suspend "rst_1" ⟨false, ""⟩ 20,
    .edit "restore_1@dark.restore" (Library.Doc.bool false)]

/-- What others disable after a suspension was set or lifted is enabled again. -/
theorem disabled_after_resume : ¬ ∀ (w₀ w w' : SafetySystem) (es : List SafetyEvent) (now : ℚ)
    (records : List Core.Record), w₀.Opening →
      Run (Step (fun _ => false) fun _ => "") w₀ es w →
        Step (fun _ => false) (fun _ => "") w (.reconcile now records) w' → w'.Retained := by
  intro h
  have heval : (disabledAfterResume.foldlM (fun w e =>
      some (w.next (fun _ => false) (fun _ => "") e)) oneRestored).map (fun w =>
        let w' := w.next (fun _ => false) (fun _ => "") (.reconcile 30 [])
        ((w'.store.users.get? "rst_1").map fun r => (r.live, r.coreEmail),
          (w'.store.core.get? "restore_1@dark.restore").map fun c => enabledIn c.body,
          w'.held "rst_1")) =
      some (some (true, "restore_1@dark.restore"), some true, true) := by
    decide +kernel
  obtain ⟨w, hrun, hobserved⟩ := Option.map_eq_some_iff.mp heval
  obtain ⟨hrow, hrest⟩ := Prod.mk.inj hobserved
  obtain ⟨hcore, hheld⟩ := Prod.mk.inj hrest
  obtain ⟨user, hrow, hpair⟩ := Option.map_eq_some_iff.mp hrow
  obtain ⟨hlive, hemail⟩ := Prod.mk.inj hpair
  obtain ⟨client, hcore, henabled⟩ := Option.map_eq_some_iff.mp hcore
  have hrun' : Run (Step (fun _ => false) fun _ => "") oneRestored disabledAfterResume w :=
    (Run.of_eval hrun).mono fun _ _ _ hstep => Option.some.inj hstep
  have hdisabled := h oneRestored w _ disabledAfterResume 30 [] oneRestored_opening hrun' rfl
    "rst_1" user client hrow hlive (hemail ▸ hcore) hheld
  rw [henabled] at hdisabled
  cases hdisabled

end SafetySystem

end Nodes
end DarkXray
