import DarkXray.Access.Accounts

/-!
# Runs of the accounts

Calls of any callers interleave between the reads and transactions of their methods.  A
credential change ends every session that exists, and nothing takes effect any more whose
password was verified against a replaced hash, provided that a password change and the removal
of a second factor are not committed after such a replacement.

Main results:

- Theorem {lit}`authScript_steady`: every method keeps the invariant.
- Theorem {lit}`credential_change_wins`: it holds in every reachable state.
- Theorem {lit}`old_password_wins`: without the condition somebody who knows only the old
  password still wins.
-/

namespace DarkXray
namespace Access

open Library

/-! ## The invariant -/

/-- A session was created, and the credentials were not changed since. -/
def Unbroken (digest admin : String) : List AuthEvent → Prop
  | [] => False
  | e :: rest => e = .created digest admin ∨ (e ≠ .changed admin ∧ Unbroken digest admin rest)

/-- Nothing took effect on a hash after that was replaced. -/
def Ordered : List AuthEvent → Prop
  | [] => True
  | .acted admin hash :: rest => .replaced admin hash ∉ rest ∧ Ordered rest
  | _ :: rest => Ordered rest

/-- What holds of every reachable store. -/
structure Upheld (s : AuthStore) : Prop where
  sessions : ∀ d r, s.sessions.get? d = some r → Unbroken d r.adminId s.history
  ordered : Ordered s.history
  stored : ∀ a row, s.admins.get? a = some row → .replaced a row.passwordHash ∉ s.history
  owners : 1 ≤ s.enabledOwners

/-- A hash that an administrator has never had. -/
def NewHash (s : AuthStore) (admin hash : String) : Prop :=
  .replaced admin hash ∉ s.history ∧
    ∀ row, s.admins.get? admin = some row → row.passwordHash ≠ hash

/-- The hash of an administrator is still the one that was verified. -/
def Unreplaced (s : AuthStore) (admin verified : String) : Prop :=
  (s.admins.get? admin).map AdminRow.passwordHash = some verified

instance (s : AuthStore) (admin hash : String) : Decidable (NewHash s admin hash) :=
  inferInstanceAs (Decidable (_ ∧ ∀ row ∈ s.admins.get? admin, row.passwordHash ≠ hash))

instance (s : AuthStore) (admin verified : String) : Decidable (Unreplaced s admin verified) :=
  inferInstanceAs (Decidable (_ = _))

variable (crypto : AuthCrypto)

/-- The salts are random: a new hash was never used before. -/
def saltOk : AuthAction → AuthInput → AuthStore → Prop
  | .changePassword admin _ new, o, s => NewHash s admin (crypto.passwordHash new o.salt)
  | .adminEdit admin (some password), o, s =>
      NewHash s admin (crypto.passwordHash password o.salt)
  | _, _, _ => True

/-- Moreover, a password change or the removal of a second factor that takes effect is not
committed after the hash was replaced that its password was verified against. -/
def authOk (name : AuthAction) (o : AuthInput) (s : AuthStore) : Prop :=
  saltOk crypto name o s ∧
    match name with
    | .changePassword admin verified new =>
        8 ≤ new.length ∧ new.length ≤ 512 → Unreplaced s admin verified
    | .mfaDisable admin verified code =>
        (∃ row ∈ s.mfa.get? admin, row.enabled = true ∧
          (verifyMfa crypto o.now row code).isOk = true) → Unreplaced s admin verified
    | _ => True

/-- Whether the salts are new can be computed. -/
instance decidableSaltOk (name : AuthAction) (o : AuthInput) (s : AuthStore) :
    Decidable (saltOk crypto name o s) :=
  match name with
  | .changePassword .. => inferInstanceAs (Decidable (NewHash ..))
  | .adminEdit _ (some _) => inferInstanceAs (Decidable (NewHash ..))
  | .adminEdit _ none => .isTrue trivial
  | .mfaDisable .. => .isTrue trivial
  | .plain => .isTrue trivial

/-- Whether an action is allowed can be computed. -/
instance decidableAuthOk (name : AuthAction) (o : AuthInput) (s : AuthStore) :
    Decidable (authOk crypto name o s) :=
  match name with
  | .changePassword .. => inferInstanceAs (Decidable (_ ∧ (_ → Unreplaced ..)))
  | .mfaDisable .. => inferInstanceAs (Decidable (_ ∧ ((∃ row ∈ _, _) → Unreplaced ..)))
  | .adminEdit .. => inferInstanceAs (Decidable (_ ∧ True))
  | .plain => inferInstanceAs (Decidable (_ ∧ True))

/-- The discipline of all methods. -/
def authDiscipline : Discipline AuthInput AuthAction AuthStore where
  inv := Upheld
  step _ _ := True
  rel _ _ := True
  ok := authOk crypto
  refl _ := trivial
  sub _ _ _ := trivial
  trans _ _ _ _ _ := trivial

/-! ## Histories -/

section Histories

variable {s t : AuthStore}

/-- Events that change no credentials keep the sessions. -/
theorem Unbroken.append {digest admin : String} {events history : List AuthEvent}
    (h : Unbroken digest admin history) (hevents : .changed admin ∉ events) :
    Unbroken digest admin (events ++ history) := by
  induction events with
  | nil => exact h
  | cons e events ih =>
      rw [List.mem_cons, not_or] at hevents
      exact Or.inr ⟨Ne.symm hevents.1, ih hevents.2⟩

/-- A change of the other tables. -/
theorem Upheld.same (h : Upheld s) (hadmins : t.admins = s.admins)
    (hsessions : ∀ d r, t.sessions.get? d = some r → s.sessions.get? d = some r)
    (hhistory : t.history = s.history) : Upheld t where
  sessions := fun d r hr => hhistory ▸ h.sessions d r (hsessions d r hr)
  ordered := hhistory ▸ h.ordered
  stored := fun a row hrow => hhistory ▸ h.stored a row (hadmins ▸ hrow)
  owners := by
    unfold AuthStore.enabledOwners
    rw [hadmins]
    exact h.owners

/-- Something takes effect on the stored hash. -/
theorem Upheld.acted {admin verified : String} (h : Upheld s)
    (hstored : Unreplaced s admin verified) :
    Upheld { s with history := .acted admin verified :: s.history } where
  sessions := fun d r hr => Or.inr ⟨(by intro hno; cases hno), h.sessions d r hr⟩
  ordered := by
    obtain ⟨row, hrow, hhash⟩ := Option.map_eq_some_iff.mp hstored
    exact ⟨hhash ▸ h.stored admin row hrow, h.ordered⟩
  stored := fun a row hrow hmem => by
    rcases List.mem_cons.mp hmem with hnew | hold
    · cases hnew
    · exact h.stored a row hrow hold
  owners := h.owners

/-- A credential change ends the sessions. -/
theorem Upheld.changed (admin : String) (h : Upheld s) :
    Upheld { s with
      sessions := s.sessions.filterRows fun _ r => r.adminId ≠ admin
      history := .changed admin :: s.history } where
  sessions := fun d r hr => by
    rw [Table.get?_filterRows, Option.filter_eq_some_iff, decide_eq_true_eq] at hr
    exact Or.inr ⟨fun he => hr.2 (AuthEvent.changed.inj he).symm, h.sessions d r hr.1⟩
  ordered := h.ordered
  stored := fun a row hrow hmem => by
    rcases List.mem_cons.mp hmem with hnew | hold
    · cases hnew
    · exact h.stored a row hrow hold
  owners := h.owners

/-- A change of an administrator that keeps the password hash and an enabled owner. -/
theorem Upheld.edited {admin : String} {g : AdminRow → AdminRow} (h : Upheld s)
    (hhash : ∀ r, (g r).passwordHash = r.passwordHash)
    (howners : 1 ≤ ({ s with admins := s.admins.update admin g } : AuthStore).enabledOwners) :
    Upheld { s with admins := s.admins.update admin g } where
  sessions := h.sessions
  ordered := h.ordered
  stored := fun a row hrow => by
    rw [Table.get?_update] at hrow
    split at hrow
    · obtain ⟨old, hold, rfl⟩ := Option.map_eq_some_iff.mp hrow
      rw [hhash]
      exact h.stored a old hold
    · exact h.stored a row hrow
  owners := howners

/-- The enabled owners stay if the role and the state of an administrator do. -/
theorem enabledOwners_update (s : AuthStore) (admin : String) (g : AdminRow → AdminRow)
    (hrole : ∀ r, (g r).role = r.role) (hdisabled : ∀ r, (g r).disabled = r.disabled) :
    ({ s with admins := s.admins.update admin g } : AuthStore).enabledOwners = s.enabledOwners := by
  unfold AuthStore.enabledOwners
  apply Table.total_update_eq
  intro r
  unfold AdminRow.enabledOwner
  rw [hrole, hdisabled]

/-- Disabling an administrator leaves an enabled owner if there was another one. -/
theorem enabledOwners_disable {admin : String} {row : AdminRow} {disabled : Bool}
    (hrow : s.admins.get? admin = some row) (howners : 1 ≤ s.enabledOwners)
    (hlast : ¬ (disabled = true ∧ row.role = .owner ∧ s.enabledOwners ≤ 1)) :
    1 ≤ ({ s with
      admins := s.admins.update admin fun a => { a with disabled := disabled } } :
        AuthStore).enabledOwners := by
  have htotal : ({ s with
      admins := s.admins.update admin fun a => { a with disabled := disabled } } :
        AuthStore).enabledOwners + row.enabledOwner =
      s.enabledOwners + AdminRow.enabledOwner { row with disabled := disabled } :=
    Table.total_update hrow (fun a => { a with disabled := disabled }) fun _ r => r.enabledOwner
  have hat : row.enabledOwner ≤ 1 := by
    unfold AdminRow.enabledOwner
    split <;> omega
  by_cases hrole : row.role = .owner
  · cases disabled with
    | false =>
        have hone : AdminRow.enabledOwner { row with disabled := false } = 1 :=
          if_pos ⟨hrole, rfl⟩
        omega
    | true =>
        simp only [hrole, true_and, not_le] at hlast
        omega
  · have hzero : row.enabledOwner = 0 := if_neg fun h => hrole h.1
    omega

/-- A new hash replaces the old one. -/
theorem Upheld.replaced {admin hash : String} {row : AdminRow} (h : Upheld s)
    (hrow : s.admins.get? admin = some row) (hnew : NewHash s admin hash) :
    Upheld { s with
      admins := s.admins.update admin fun a => { a with passwordHash := hash }
      history := .replaced admin row.passwordHash :: s.history } where
  sessions := fun d r hr => Or.inr ⟨(by intro hno; cases hno), h.sessions d r hr⟩
  ordered := h.ordered
  stored := fun a row' hrow' hmem => by
    rw [Table.get?_update] at hrow'
    by_cases ha : a = admin
    · subst ha
      rw [if_pos rfl, hrow, Option.map_some, Option.some.injEq] at hrow'
      subst hrow'
      rcases List.mem_cons.mp hmem with hsame | hold
      · exact hnew.2 row hrow (AuthEvent.replaced.inj hsame).2.symm
      · exact hnew.1 hold
    · rw [if_neg ha] at hrow'
      rcases List.mem_cons.mp hmem with hsame | hold
      · exact ha (AuthEvent.replaced.inj hsame).1
      · exact h.stored a row' hrow' hold
  owners := by
    have howners := enabledOwners_update s admin
      (fun a => { a with passwordHash := hash }) (fun _ => rfl) (fun _ => rfl)
    unfold AuthStore.enabledOwners at howners ⊢
    rw [howners]
    exact h.owners

/-- A session is created on the stored hash. -/
theorem Upheld.created {digest admin verified : String} (row : SessionRow) (h : Upheld s)
    (hadmin : row.adminId = admin) (hdigest : s.sessions.get? digest = none)
    (hstored : Unreplaced s admin verified) :
    Upheld { s with
      sessions := s.sessions.insert digest row
      history := .created digest admin :: .acted admin verified :: s.history } where
  sessions := fun d r hr => by
    rw [Table.get?_insert hdigest] at hr
    split at hr <;> rename_i hd
    · obtain rfl := Option.some.inj hr
      rw [hd, hadmin]
      exact Or.inl rfl
    · exact Or.inr ⟨(by intro hno; cases hno), Or.inr ⟨(by intro hno; cases hno), h.sessions d r hr⟩⟩
  ordered := (h.acted hstored).ordered
  stored := fun a row' hrow' hmem => by
    rcases List.mem_cons.mp hmem with hnew | hold
    · cases hnew
    · exact (h.acted hstored).stored a row' hrow' hold
  owners := h.owners

end Histories

/-! ## Transactions -/

section Transactions

variable {crypto} {s : AuthStore} {o : AuthInput}

/-- A transaction keeps the invariant if its body does. -/
theorem upheld_commit {α : Type} {name : AuthAction} {body : AuthInput → AuthTx α}
    (h : ∀ o s, Upheld s → authOk crypto name o s →
      (body o).wp (fun _ t => Upheld t) (fun _ _ => True) s) :
    (commit name body).Steady (authDiscipline crypto) := by
  apply Script.Steady.perform
  intro o s hs hok
  rw [Tx.wp_transaction]
  apply Tx.wp_mono (h o s hs hok)
  · exact fun _ _ ht => ⟨ht, trivial⟩
  · exact fun _ _ _ => ⟨hs, trivial⟩

/-- A read keeps the invariant. -/
theorem upheld_read {α : Type} {name : AuthAction} {f : AuthInput → AuthStore → α} :
    (Script.perform name (fun o => Tx.read (f o)) : AuthScript α).Steady
      (authDiscipline crypto) :=
  Script.Steady.perform fun _ _ hs _ => ⟨hs, trivial⟩

/-- Counting an attempt upholds the accounts. -/
theorem upheld_attempt {username bucket : String} (hs : Upheld s) :
    (attemptTx username bucket o).wp (fun _ t => Upheld t) (fun _ _ => True) s := by
  unfold attemptTx
  simp only [Tx.wp_bind, Tx.wp_read, Tx.wp_require, Tx.wp_write, Tx.wp_pure, implies_true,
    and_true]
  exact fun _ => hs.same rfl (fun _ _ h => h) rfl

/-- A new hash is written over an old one. -/
theorem wp_writePassword {admin password hash message : String} (hs : Upheld s)
    (hnew : NewHash s admin hash) :
    (writePassword crypto admin password hash message).wp (fun _ t => Upheld t)
      (fun _ _ => True) s := by
  unfold writePassword
  simp only [Tx.wp_bind, Tx.wp_read, Tx.wp_require, Tx.wp_write, implies_true, and_true]
  rintro ⟨a, ha, -⟩
  cases hrow : s.admins.get? admin with
  | none =>
      rw [Table.get?_update, if_pos rfl, hrow] at ha
      cases ha
  | some row => exact hs.replaced hrow hnew

/-- The second factor of a login only changes its own row. -/
theorem wp_consumeMfa {username otp : String} :
    (consumeMfa crypto username otp o).wp (fun _ t => ∃ mfa, t = { s with mfa := mfa })
      (fun _ _ => True) s := by
  unfold consumeMfa
  simp only [Tx.wp_bind, Tx.wp_read]
  cases (s.mfa.get? username).filter fun m => m.enabled with
  | none => exact ⟨s.mfa, rfl⟩
  | some row =>
      simp only [Tx.wp_bind, Tx.wp_ofExcept, implies_true, and_true]
      exact fun row' _ => ⟨_, rfl⟩

/-- A login upholds the accounts. -/
theorem upheld_login {username bucket otp source agent verified : String} {now : ℚ}
    {seconds : ℤ} (hs : Upheld s) :
    (loginTx crypto username bucket otp source agent verified now seconds o).wp
      (fun _ t => Upheld t) (fun _ _ => True) s := by
  unfold loginTx
  simp only [Tx.wp_bind, Tx.wp_read, Tx.wp_require, implies_true, and_true]
  rintro ⟨a, ha, -, hhash⟩
  have hstored : Unreplaced s username verified := by
    unfold Unreplaced
    rw [ha, ← hhash]
    rfl
  apply Tx.wp_mono wp_consumeMfa
  · rintro _ t ⟨mfa, rfl⟩
    unfold insertSession note
    simp only [Tx.wp_bind, Tx.wp_write, Tx.wp_read, Tx.wp_require, Tx.wp_pure, implies_true,
      and_true]
    rintro ⟨hdigest, -⟩
    have hkept : Upheld { s with
        mfa := mfa
        sessions := s.sessions.filterRows fun _ r => now < r.expiresAt } := by
      refine hs.same rfl (fun d r hr => ?_) rfl
      rw [Table.get?_filterRows, Option.filter_eq_some_iff] at hr
      exact hr.1
    have hcreated := hkept.created {
      adminId := username
      csrf := o.csrf
      expiresAt := now + seconds
      publicId := takeText 24 (crypto.digest o.token)
      createdAt := now
      source := source
      userAgent := agent } rfl hdigest hstored
    exact hcreated.same rfl (fun _ _ h => h) rfl
  · exact fun _ _ _ => trivial

/-- Permissions and state may be edited as long as an enabled owner is left. -/
theorem wp_editRow {username : String} {row : AdminRow} {disabled : Option Bool}
    {values : Option Permissions} (hs : Upheld s) (hrow : s.admins.get? username = some row)
    (hlast : ¬ (disabled = some true ∧ row.role = .owner ∧ s.enabledOwners ≤ 1)) :
    (editRow username row.role disabled values).wp
      (fun _ t => Upheld t ∧ t.history = s.history ∧
        (t.admins.get? username).map AdminRow.passwordHash = some row.passwordHash)
      (fun _ _ => True) s := by
  have hdisable : ∀ t : AuthStore, ∀ row' : AdminRow, Upheld t → t.history = s.history →
      t.admins.get? username = some row' → row'.passwordHash = row.passwordHash →
      row'.role = row.role → t.enabledOwners = s.enabledOwners →
      (setDisabled username disabled).wp
        (fun _ t => Upheld t ∧ t.history = s.history ∧
          (t.admins.get? username).map AdminRow.passwordHash = some row.passwordHash)
        (fun _ _ => True) t := by
    intro t row' ht hhistory hrow' hhash hrole howners
    cases disabled with
    | none =>
        refine ⟨ht, hhistory, ?_⟩
        rw [hrow', ← hhash]
        rfl
    | some disabled =>
        unfold setDisabled
        rw [Tx.wp_write]
        refine ⟨ht.edited (fun _ => rfl) ?_, hhistory, ?_⟩
        · apply enabledOwners_disable hrow' ht.owners
          rw [howners, hrole]
          simpa using hlast
        · rw [Table.get?_update, if_pos rfl, hrow', ← hhash]
          rfl
  unfold editRow
  cases values with
  | none => exact hdisable s row hs rfl hrow rfl rfl rfl
  | some values =>
      simp only [Tx.wp_bind, Tx.wp_ofExcept, Tx.wp_write, implies_true, and_true]
      intro valid _
      have howners := enabledOwners_update s username
        (fun a => { a with permissions := valid }) (fun _ => rfl) (fun _ => rfl)
      apply hdisable _ { row with permissions := valid }
      · exact hs.edited (fun _ => rfl) (howners ▸ hs.owners)
      · rfl
      · rw [Table.get?_update, if_pos rfl, hrow]
        rfl
      · rfl
      · rfl
      · exact howners

/-- The hash of an accepted password. -/
theorem passwordHash_ok {password hash : String} {salt : ℕ}
    (h : passwordHash crypto password salt = .ok hash) :
    hash = crypto.passwordHash password salt := by
  unfold passwordHash at h
  split at h
  · exact (Except.ok.inj h).symm
  · cases h

/-- Editing an account upholds the accounts. -/
theorem upheld_adminEdit {username : String} {disabled : Option Bool} {password : Option String}
    {values : Option Permissions} (hs : Upheld s)
    (hok : saltOk crypto (.adminEdit username password) o s) :
    (adminEditTx crypto username disabled password values o).wp (fun _ t => Upheld t)
      (fun _ _ => True) s := by
  unfold adminEditTx
  simp only [Tx.wp_bind, Tx.wp_ofExcept, Tx.wp_read, Tx.wp_demand, Tx.wp_require, implies_true,
    and_true]
  intro hashed hhashed row hrow hlast
  apply Tx.wp_mono (wp_editRow hs hrow hlast)
  · rintro _ t ⟨ht, hhistory, hhash⟩
    cases password with
    | none =>
        obtain rfl : hashed = none := (Except.ok.inj hhashed).symm
        exact ht.changed username
    | some password =>
        obtain rfl : hashed = some (crypto.passwordHash password o.salt) := by
          cases hpassword : passwordHash crypto password o.salt with
          | error e =>
              have herror : some <$> passwordHash crypto password o.salt = .ok hashed := hhashed
              rw [hpassword] at herror
              cases herror
          | ok hash =>
              have hmapped : some <$> passwordHash crypto password o.salt = .ok hashed := hhashed
              rw [hpassword] at hmapped
              rw [← passwordHash_ok hpassword]
              exact (Except.ok.inj hmapped).symm
        have hnew : NewHash t username (crypto.passwordHash password o.salt) := by
          refine ⟨hhistory ▸ hok.1, fun row' hrow' hsame => ?_⟩
          rw [hrow', Option.map_some, Option.some.injEq] at hhash
          exact hok.2 row hrow (hhash.symm.trans hsame)
        dsimp only
        rw [Tx.wp_bind]
        apply Tx.wp_mono (wp_writePassword ht hnew)
        · exact fun _ u hu => hu.changed username
        · exact fun _ _ _ => trivial
  · exact fun _ _ _ => trivial

/-- Changing a password upholds the accounts. -/
theorem upheld_changePassword {admin verified new : String} (hs : Upheld s)
    (hok : authOk crypto (.changePassword admin verified new) o s) :
    (do
      note [.acted admin verified]
      changePasswordTx crypto admin new o : AuthTx Unit).wp (fun _ t => Upheld t)
      (fun _ _ => True) s := by
  unfold note changePasswordTx
  simp only [Tx.wp_bind, Tx.wp_write, Tx.wp_ofExcept, implies_true, and_true]
  intro hash hhash
  have hlength : 8 ≤ new.length ∧ new.length ≤ 512 := by
    by_contra hlength
    rw [passwordHash, if_neg hlength] at hhash
    cases hhash
  have hacted := hs.acted (hok.2 hlength)
  have hnew : NewHash { s with history := .acted admin verified :: s.history } admin hash := by
    rw [passwordHash_ok hhash]
    refine ⟨fun hmem => ?_, hok.1.2⟩
    rcases List.mem_cons.mp hmem with hhead | hold
    · cases hhead
    · exact hok.1.1 hold
  apply Tx.wp_mono (wp_writePassword hacted hnew)
  · exact fun _ u hu => hu.changed admin
  · exact fun _ _ _ => trivial

/-- Removing a second factor upholds the accounts. -/
theorem upheld_mfaDisable {admin verified code : String} (hs : Upheld s)
    (hok : authOk crypto (.mfaDisable admin verified code) o s) :
    (do
      note [.acted admin verified]
      mfaDisableTx crypto admin code o : AuthTx Unit).wp (fun _ t => Upheld t)
      (fun _ _ => True) s := by
  unfold note mfaDisableTx
  simp only [Tx.wp_bind, Tx.wp_write, Tx.wp_read, Tx.wp_demand, Tx.wp_ofExcept, implies_true,
    and_true]
  intro row hrow row' hverify
  obtain ⟨hget, henabled⟩ := Option.filter_eq_some_iff.mp hrow
  have hacted := hs.acted (hok.2 ⟨row, hget, henabled, by rw [hverify]; rfl⟩)
  have herased : Upheld { s with
      history := .acted admin verified :: s.history
      mfa := s.mfa.erase admin } := hacted.same rfl (fun _ _ h => h) rfl
  exact herased.changed admin

/-- Confirming a second factor upholds the accounts. -/
theorem upheld_mfaEnable {admin code : String} (hs : Upheld s) :
    (do
      let row ← Tx.read fun s => (s.mfa.get? admin).filter fun m => m.pending ≠ "" && !m.enabled
      let r ← Tx.demand row (.policy "No pending TOTP enrollment")
      let secret ← Tx.demand (crypto.decrypt r.pending) .invalidToken
      let matched ← Tx.ofExcept (matchStep crypto secret code (fun _ => true) (steps o.now))
      let step ← Tx.demand matched (.denied "Invalid enrollment code")
      writeMfa admin ⟨r.pending, "", true, step, o.codes.map crypto.digest⟩
      dropSessions admin
      note [.changed admin]
      return o.codes : AuthTx (List String)).wp (fun _ t => Upheld t) (fun _ _ => True) s := by
  unfold writeMfa
  simp only [Tx.wp_bind, Tx.wp_read, Tx.wp_demand, Tx.wp_ofExcept, Tx.wp_write, Tx.wp_pure,
    implies_true, and_true]
  intro row _ secret _ matched _ step _
  have hwritten : Upheld { s with
      mfa := s.mfa.update admin fun _ =>
        ⟨row.pending, "", true, step, o.codes.map crypto.digest⟩ } :=
    hs.same rfl (fun _ _ h => h) rfl
  exact hwritten.changed admin

end Transactions

/-! ## Methods -/

section Methods

variable {crypto}

/-- A login keeps the discipline. -/
theorem steady_login {username password otp source agent : String} {seconds : ℤ} :
    (login crypto username password otp source seconds agent).Steady
      (authDiscipline crypto) := by
  unfold login
  split
  · exact Script.Steady.raise
  apply Script.Steady.bind (upheld_commit fun _ _ hs _ => upheld_attempt hs)
  rintro ⟨now, _ | a⟩
  · exact Script.Steady.raise
  · dsimp only
    split
    · exact Script.Steady.raise
    · apply Script.Steady.bind (upheld_commit fun _ _ hs _ => upheld_login hs)
      exact fun _ => Script.Steady.pure

/-- Reading the session keeps the discipline. -/
theorem steady_current {cookie authorization : String} :
    (current crypto cookie authorization).Steady (authDiscipline crypto) := by
  unfold current
  apply Script.Steady.perform
  intro o s hs _
  simp only [Tx.wp_bind, Tx.wp_read, Tx.wp_ofExcept]
  exact ⟨fun _ _ => ⟨hs, trivial⟩, fun _ _ => ⟨hs, trivial⟩⟩

/-- Editing an account keeps the discipline. -/
theorem steady_adminEdit {actorRole : Option Role} {username : String} {disabled : Option Bool}
    {password : Option String} {values : Option Permissions} :
    (adminEdit crypto actorRole username disabled password values).Steady
      (authDiscipline crypto) := by
  unfold adminEdit
  split
  · exact Script.Steady.raise
  · exact upheld_commit fun _ _ hs hok => upheld_adminEdit hs hok.1

/-- Changing a password keeps the discipline. -/
theorem steady_changePassword {p : Principal} {old new : String} :
    (changePassword crypto p old new).Steady (authDiscipline crypto) := by
  unfold changePassword
  split
  · exact Script.Steady.raise
  apply Script.Steady.bind upheld_read
  intro hash
  cases hash with
  | none => exact Script.Steady.raise
  | some hash =>
      dsimp only
      split
      · exact Script.Steady.raise
      · exact upheld_commit fun _ _ hs hok => upheld_changePassword hs hok

/-- Preparing a second factor keeps the discipline. -/
theorem steady_mfaSetup {p : Principal} {password : String} :
    (mfaSetup crypto p password).Steady (authDiscipline crypto) := by
  unfold mfaSetup
  split
  · exact Script.Steady.raise
  apply Script.Steady.bind upheld_read
  rintro ⟨_ | a, old⟩
  · exact Script.Steady.raise
  · dsimp only
    split
    · exact Script.Steady.raise
    split
    · exact Script.Steady.raise
    · exact upheld_commit fun _ _ hs _ => hs.same rfl (fun _ _ h => h) rfl

/-- Confirming a second factor keeps the discipline. -/
theorem steady_mfaEnable {p : Principal} {code : String} :
    (mfaEnable crypto p code).Steady (authDiscipline crypto) := by
  unfold mfaEnable
  split
  · exact Script.Steady.raise
  · exact upheld_commit fun _ _ hs _ => upheld_mfaEnable hs

/-- Removing a second factor keeps the discipline. -/
theorem steady_mfaDisable {p : Principal} {password code : String} :
    (mfaDisable crypto p password code).Steady (authDiscipline crypto) := by
  unfold mfaDisable
  split
  · exact Script.Steady.raise
  apply Script.Steady.bind upheld_read
  intro hash
  cases hash with
  | none => exact Script.Steady.raise
  | some hash =>
      dsimp only
      split
      · exact Script.Steady.raise
      · exact upheld_commit fun _ _ hs hok => upheld_mfaDisable hs hok

/-- Revoking a session keeps the discipline. -/
theorem steady_revokeSession {p : Principal} {publicId : String} :
    (revokeSession p publicId).Steady (authDiscipline crypto) := by
  unfold revokeSession
  split
  · split
    · exact Script.Steady.raise
    · apply upheld_commit
      intro o s hs _
      simp only [Tx.wp_bind, Tx.wp_read, Tx.wp_demand, Tx.wp_write, Tx.wp_pure, implies_true,
        and_true]
      intro row _
      refine hs.same rfl (fun d r hr => ?_) rfl
      rw [Table.get?_erase] at hr
      split at hr
      · cases hr
      · exact hr
  · exact Script.Steady.raise

/-- Revoking the other sessions keeps the discipline. -/
theorem steady_revokeOtherSessions {p : Principal} :
    (revokeOtherSessions p).Steady (authDiscipline crypto) := by
  unfold revokeOtherSessions
  split
  · apply upheld_commit
    intro o s hs _
    simp only [Tx.wp_bind, Tx.wp_read, Tx.wp_write, Tx.wp_pure]
    refine hs.same rfl (fun d r hr => ?_) rfl
    rw [Table.get?_filterRows, Option.filter_eq_some_iff] at hr
    exact hr.1
  · exact Script.Steady.raise

/-- Every method keeps the invariant. -/
theorem authScript_steady (call : AuthCall) :
    (authScript crypto call).Steady (authDiscipline crypto) := by
  cases call with
  | login => exact steady_login.bind fun _ => Script.Steady.pure
  | current => exact steady_current.bind fun _ => Script.Steady.pure
  | adminEdit => exact steady_adminEdit.bind fun _ => Script.Steady.pure
  | changePassword => exact steady_changePassword.bind fun _ => Script.Steady.pure
  | mfaSetup => exact steady_mfaSetup.bind fun _ => Script.Steady.pure
  | mfaEnable => exact steady_mfaEnable.bind fun _ => Script.Steady.pure
  | mfaDisable => exact steady_mfaDisable.bind fun _ => Script.Steady.pure
  | revokeSession => exact steady_revokeSession.bind fun _ => Script.Steady.pure
  | revokeOtherSessions => exact steady_revokeOtherSessions.bind fun _ => Script.Steady.pure

end Methods

/-! ## Runs -/

/-- A store before its first session: an owner can log in. -/
structure AuthStore.Opening (s : AuthStore) : Prop where
  sessions : s.sessions = Table.empty
  history : s.history = []
  owners : 1 ≤ s.enabledOwners

/-- The accounts are upheld at the start. -/
theorem AuthStore.Opening.upheld {s : AuthStore} (h : s.Opening) : Upheld s where
  sessions := fun d r hr => by
    rw [h.sessions, Table.get?_empty] at hr
    cases hr
  ordered := by
    rw [h.history]
    trivial
  stored := fun a row _ hmem => by
    rw [h.history] at hmem
    cases hmem
  owners := h.owners

/-- A principal that is accepted: an enabled administrator, with a session that was created
after the last change of its credentials. -/
structure Accepted (s : AuthStore) (cookie : String) (p : Principal) : Prop where
  enabled : ∃ a, s.admins.get? p.id = some a ∧ a.disabled = false
  session : p.keyId = none → Unbroken (crypto.digest cookie) p.id s.history

/-- The system of all calls. -/
abbrev AuthSystem := Pool AuthCall AuthInput AuthAction AuthStore AuthError AuthResult

/-- One event of the system: a call arrives, takes its next step or is lost. -/
def AuthSystem.Step : AuthSystem → PoolEvent AuthCall AuthInput (Table String RobotKey) →
    AuthSystem → Prop :=
  Pool.Step (authScript crypto) newKeys

/-- What a credential change guarantees. -/
structure ChangesWin (s : AuthStore) : Prop where
  ordered : Ordered s.history
  accepted : ∀ now cookie authorization p,
    currentPrincipal crypto now cookie authorization s = .ok p → Accepted crypto s cookie p
  owners : 1 ≤ s.enabledOwners

variable {crypto}

/-- A credential change beats everything that still relies on the old credential: in every
state of every run whose password changes and removals of second factors are committed on the
hash that they have verified. -/
theorem credential_change_wins {s : AuthStore} {w : AuthSystem}
    {es : List (PoolEvent AuthCall AuthInput (Table String RobotKey))} (hs : s.Opening)
    (hrun : Run (Guarded (AuthSystem.Step crypto) (Pool.Allowed (authOk crypto)))
      (Pool.start s) es w) : ChangesWin crypto w.store := by
  have houtside : ∀ keys t, Upheld t → Upheld (newKeys keys t) ∧ True :=
    fun _ _ ht => ⟨ht.same rfl (fun _ _ h => h) rfl, trivial⟩
  have hstart : (Pool.start s : AuthSystem).Safe (authDiscipline crypto) (fun _ _ _ => True)
      (fun _ _ _ => True) := Pool.safe_start hs.upheld
  have hsafe := (hstart.run (fun k t _ => (authScript_steady k).safe t) houtside hrun).1
  have hupheld : Upheld w.store := hsafe.inv
  refine ⟨hupheld.ordered, fun now cookie authorization p hp => ?_, hupheld.owners⟩
  obtain ⟨henabled, hsession⟩ := currentPrincipal_spec hp
  refine ⟨henabled, fun hkey => ?_⟩
  obtain ⟨r, hr, hadmin⟩ := hsession hkey
  exact hadmin ▸ hupheld.sessions _ r hr

/-! ## A password change that comes too late -/

/-- Digests and hashes that can be read. -/
def plainCrypto : AuthCrypto where
  digest text := text
  totp secret step := if step = 0 then secret else ""
  passwordHash password salt := password ++ ":" ++ salt.repr
  verifyPassword password hash := (password ++ ":").toList.isPrefixOf hash.toList
  encrypt _ text := text
  decrypt text := some text

/-- One owner, with the password {lit}`old-secret`. -/
def ownerStore : AuthStore where
  admins := Table.empty.insert "root" ⟨.owner, "old-secret:0", [], false⟩
  sessions := Table.empty
  keys := Table.empty
  mfa := Table.empty
  attempts := Table.empty
  history := []

/-- A store with one owner is a start. -/
theorem ownerStore_opening : ownerStore.Opening where
  sessions := rfl
  history := rfl
  owners := by decide

/-- Somebody in a session of the owner. -/
def intruder : Principal where
  id := "root"
  role := some .owner
  permissions := []
  sessionId := some "stolen"
  csrf := ""
  keyId := none

/-- An input with a salt. -/
def salted (salt : ℕ) : AuthInput where
  now := 0
  salt := salt
  token := "token"
  csrf := "csrf"
  secret := "secret"
  codes := []

/-- The old password is verified for a password change, and the change is committed. -/
def changeOnly : List (PoolEvent AuthCall AuthInput (Table String RobotKey)) :=
  [.enter (.changePassword intruder "old-secret" "new-secret"), .run 0 (salted 1),
    .run 0 (salted 1)]

/-- After the change the new password counts. -/
theorem credential_change_wins_changed : ∃ w : AuthSystem, ChangesWin plainCrypto w.store ∧
    (w.store.admins.get? "root").map AdminRow.passwordHash = some "new-secret:1" := by
  have heval : ((changeOnly.foldlM (fun w e => if Pool.Allowed (authOk plainCrypto) w e then
      Pool.next (authScript plainCrypto) newKeys w e else none)
      (Pool.start ownerStore : AuthSystem)).map fun w =>
        (w.store.admins.get? "root").map AdminRow.passwordHash) =
        some (some "new-secret:1") := by
    decide +kernel
  obtain ⟨w, hrun, hobserved⟩ := Option.map_eq_some_iff.mp heval
  exact ⟨w, credential_change_wins ownerStore_opening (Run.of_guarded_eval hrun), hobserved⟩

/-- Between the two steps of the change the owner resets the password. -/
def changeLate : List (PoolEvent AuthCall AuthInput (Table String RobotKey)) :=
  [.enter (.changePassword intruder "old-secret" "new-secret"), .run 0 (salted 1),
    .enter (.adminEdit (some .owner) "root" none (some "reset-secret") none), .run 1 (salted 2),
    .run 0 (salted 3)]

/-- Somebody who knows only the old password still wins. -/
theorem old_password_wins : ¬∀ s es (w : AuthSystem), s.Opening →
    Run (Guarded (AuthSystem.Step plainCrypto) (Pool.Allowed (saltOk plainCrypto)))
      (Pool.start s) es w → ChangesWin plainCrypto w.store := by
  intro h
  have heval : ((changeLate.foldlM (fun w e => if Pool.Allowed (saltOk plainCrypto) w e then
      Pool.next (authScript plainCrypto) newKeys w e else none)
      (Pool.start ownerStore : AuthSystem)).map fun w => w.store.history) =
        some [.changed "root", .replaced "root" "reset-secret:2", .acted "root" "old-secret:0",
          .changed "root", .replaced "root" "old-secret:0"] := by
    decide +kernel
  obtain ⟨w, hrun, hobserved⟩ := Option.map_eq_some_iff.mp heval
  have hordered := (h ownerStore _ w ownerStore_opening (Run.of_guarded_eval hrun)).ordered
  rw [hobserved] at hordered
  exact hordered.1 (List.mem_cons_of_mem _ List.mem_cons_self)

end Access
end DarkXray
