import DarkXray.Access.AccountRuns
import DarkXray.Library.Outcomes
import Mathlib.Algebra.Order.Group.Abs

/-!
# Second-factor codes

A code of a second factor is accepted once.  The row of an enrolment keeps the step of the
last one-time password and the digests of the recovery codes that are left, and a call that
takes effect moves the step forwards or takes a digest away.

Main results:

- Theorem {lit}`verifyMfa_ok`: what an accepted code does to the row.
- Theorem {lit}`authScript_each`: what the actions of every method do to the second factors.
- Theorem {lit}`second_factor_single_use`: in every run, over every enrolment.
-/

namespace DarkXray
namespace Access

open Library

/-! ## Accepted codes -/

/-- What has authenticated a call. -/
inductive Factor where
  /-- The one-time password of a step. -/
  | step (counter : ℤ)
  /-- A recovery code, by its digest. -/
  | recovery (digest : String)
deriving DecidableEq, Repr

/-- The counter of a one-time password. -/
def Factor.step? : Factor → Option ℤ
  | .step counter => some counter
  | .recovery _ => none

/-- The digest of a recovery code. -/
def Factor.recovery? : Factor → Option String
  | .step _ => none
  | .recovery digest => some digest

variable (crypto : AuthCrypto)

/-- What a code authenticates with at a row, if {lit}`_verify_mfa` accepts it. -/
def factorOf (now : ℚ) (row : MfaRow) (code : String) : Option Factor :=
  match verifyMfa crypto now row code with
  | .error _ => none
  | .ok row' =>
      some (if row.lastStep < row'.lastStep then .step row'.lastStep
        else .recovery (crypto.digest code))

section Codes

variable {crypto} {now : ℚ} {secret code : String} {row row' : MfaRow}

/-- Texts that compare as equal are equal. -/
theorem compareDigest_ok {a b : String} (h : compareDigest a b = .ok true) : a = b := by
  unfold compareDigest at h
  split at h
  · exact of_decide_eq_true (Except.ok.inj h)
  · cases h

/-- A matched counter is one of those that were tried, and has the code. -/
theorem matchStep_some {tried : ℤ → Bool} {counters : List ℤ} {counter : ℤ}
    (h : matchStep crypto secret code tried counters = .ok (some counter)) :
    counter ∈ counters ∧ tried counter = true ∧ crypto.totp secret counter = code := by
  induction counters with
  | nil => cases h
  | cons first rest ih =>
      unfold matchStep at h
      have hrest : matchStep crypto secret code tried rest = .ok (some counter) →
          counter ∈ first :: rest ∧ tried counter = true ∧ crypto.totp secret counter = code := by
        intro hmatch
        obtain ⟨hmem, hfound⟩ := ih hmatch
        exact ⟨List.mem_cons_of_mem _ hmem, hfound⟩
      split at h
      · rename_i htried
        rw [except_bind_ok_iff] at h
        obtain ⟨matched, hcompare, h⟩ := h
        cases matched with
        | true =>
            rw [if_pos rfl, except_pure_ok_iff] at h
            cases h
            exact ⟨List.mem_cons_self, htried, compareDigest_ok hcompare⟩
        | false => exact hrest h
      · exact hrest h

/-- What an accepted code does to the row. -/
theorem verifyMfa_ok (h : verifyMfa crypto now row code = .ok row') :
    (∃ secret counter, crypto.decrypt row.secret = some secret ∧ counter ∈ steps now ∧
      row.lastStep < counter ∧ crypto.totp secret counter = code ∧
      row' = { row with lastStep := counter }) ∨
    (crypto.digest code ∈ row.recovery ∧
      row' = { row with recovery := row.recovery.erase (crypto.digest code) }) := by
  unfold verifyMfa at h
  rw [except_bind_ok_iff] at h
  obtain ⟨secret, hsecret, h⟩ := h
  rw [except_bind_ok_iff] at h
  obtain ⟨matched, hmatched, h⟩ := h
  cases matched with
  | some counter =>
      obtain ⟨hmem, htried, hcode⟩ := matchStep_some hmatched
      refine Or.inl ⟨secret, counter, ?_, hmem, of_decide_eq_true htried, hcode, (except_pure_ok_iff.mp h)⟩
      cases hdecrypt : crypto.decrypt row.secret with
      | none =>
          rw [hdecrypt] at hsecret
          cases hsecret
      | some text =>
          rw [hdecrypt] at hsecret
          cases hsecret
          rfl
  | none =>
      dsimp only at h
      split at h
      · rename_i hmem
        exact Or.inr ⟨hmem, except_pure_ok_iff.mp h⟩
      · cases h

end Codes

/-! ## What the methods do to the second factors -/

/-- The row of an enrolment. -/
def AuthStore.enrolment (s : AuthStore) (admin : String) : Option MfaRow :=
  (s.mfa.get? admin).filter MfaRow.enabled

/-- A code is accepted for an administrator, if a second factor is required. -/
def Presents (admin code : String) (o : AuthInput) (s t : AuthStore) : Prop :=
  (s.enrolment admin = none ∧ t.mfa = s.mfa) ∨
    ∃ row row', s.enrolment admin = some row ∧ verifyMfa crypto o.now row code = .ok row' ∧
      t.mfa = s.mfa.update admin fun _ => row'

/-- A second factor is removed with a code. -/
def Removes (admin code : String) (o : AuthInput) (s t : AuthStore) : Prop :=
  ∃ row row', s.enrolment admin = some row ∧ verifyMfa crypto o.now row code = .ok row' ∧
    t.mfa = s.mfa.erase admin

/-- A second factor is enabled with a code of its pending secret. -/
def Enables (admin code : String) (o : AuthInput) (s t : AuthStore) : Prop :=
  ∃ row secret counter, s.mfa.get? admin = some row ∧ row.enabled = false ∧
    crypto.decrypt row.pending = some secret ∧ counter ∈ steps o.now ∧
    crypto.totp secret counter = code ∧
    t.mfa = s.mfa.update admin fun _ =>
      ⟨row.pending, "", true, counter, o.codes.map crypto.digest⟩

/-- A secret waits for its first code. -/
def Prepares (admin : String) (s t : AuthStore) : Prop :=
  ∃ secret, t.mfa = s.mfa.upsert admin ⟨secret, secret, false, -1, []⟩
    fun m => { m with pending := secret }

/-- Neither second factors nor sessions change. -/
def Untouched (s t : AuthStore) : Prop :=
  t.mfa = s.mfa ∧ t.sessions = s.sessions

/-- What an action of a call does to the second factors, by what the call has returned then. -/
def Does (call : AuthCall) (o : AuthInput) (s t : AuthStore) (returned : Option AuthResult) :
    Prop :=
  match call with
  | .login username _ otp _ _ _ =>
      (returned = none → Untouched s t) ∧
        (returned ≠ none → Presents crypto username otp o s t)
  | .mfaDisable p _ code =>
      (returned = none → Untouched s t) ∧ (returned ≠ none → Removes crypto p.id code o s t)
  | .mfaEnable p code =>
      (returned = none → Untouched s t) ∧
        (returned ≠ none → returned = some (.codes o.codes) ∧ Enables crypto p.id code o s t)
  | .mfaSetup p _ => t.mfa = s.mfa ∨ Prepares p.id s t
  | _ => t.mfa = s.mfa

/-- What the actions of a call do. -/
def Acts (call : AuthCall) (o : AuthInput) (s t : AuthStore) (rest : AuthScript AuthResult) :
    Prop :=
  Does crypto call o s t rest.returned

section Methods

variable {crypto}

/-- A transaction that raises has done nothing. -/
theorem each_commit {α : Type} {name : AuthAction} {body : AuthInput → AuthTx α}
    {good : AuthInput → AuthStore → AuthStore → AuthScript α → Prop}
    (h : ∀ o s, (body o).wp (fun a t => good o s t (.done (.ok a)))
      (fun e _ => good o s s (.done (.error e))) s) : (commit name body).Each good := by
  apply Script.Each.perform
  intro o s
  rw [Tx.wp_transaction]
  exact h o s

/-- A read only reads. -/
theorem each_read {α : Type} {name : AuthAction} {f : AuthInput → AuthStore → α}
    {good : AuthInput → AuthStore → AuthStore → AuthScript α → Prop}
    (h : ∀ o s, good o s s (.done (.ok (f o s)))) :
    (Script.perform name (fun o => Tx.read (f o)) : AuthScript α).Each good :=
  Script.Each.perform h

/-- Counting an attempt touches no second factor. -/
theorem wp_attempt_mfa {username bucket : String} {o : AuthInput} {s : AuthStore} :
    (attemptTx username bucket o).wp (fun _ t => Untouched s t) (fun _ _ => True) s := by
  unfold attemptTx
  simp only [Tx.wp_bind, Tx.wp_read, Tx.wp_require, Tx.wp_write, Tx.wp_pure, implies_true,
    and_true]
  exact fun _ => ⟨rfl, rfl⟩

/-- The second factor of a login. -/
theorem wp_consumeMfa_presents {username otp : String} {o : AuthInput} {s : AuthStore} :
    (consumeMfa crypto username otp o).wp (fun _ t => Presents crypto username otp o s t)
      (fun _ _ => True) s := by
  unfold consumeMfa
  simp only [Tx.wp_bind, Tx.wp_read]
  cases hrow : (s.mfa.get? username).filter fun m => m.enabled with
  | none => exact Or.inl ⟨hrow, rfl⟩
  | some row =>
      simp only [Tx.wp_bind, Tx.wp_ofExcept, implies_true, and_true]
      exact fun row' hverify => Or.inr ⟨row, row', hrow, hverify, rfl⟩

/-- A session is created with an accepted code. -/
theorem wp_login_presents {username bucket otp source agent verified : String} {now : ℚ}
    {seconds : ℤ} {o : AuthInput} {s : AuthStore} :
    (loginTx crypto username bucket otp source agent verified now seconds o).wp
      (fun _ t => Presents crypto username otp o s t) (fun _ _ => True) s := by
  unfold loginTx
  simp only [Tx.wp_bind, Tx.wp_read, Tx.wp_require, implies_true, and_true]
  intro _
  refine Tx.wp_mono wp_consumeMfa_presents (fun _ t ht => ?_) fun _ _ _ => trivial
  unfold insertSession note
  simp only [Tx.wp_bind, Tx.wp_read, Tx.wp_require, Tx.wp_write, Tx.wp_pure, implies_true,
    and_true]
  exact fun _ => ht

/-- What the actions of a login do. -/
theorem each_login {username password otp source agent : String} {seconds : ℤ} :
    (authScript crypto (.login username password otp source seconds agent)).Each
      (Acts crypto (.login username password otp source seconds agent)) := by
  apply Script.Each.bind _ fun _ => Script.Each.pure
  unfold login
  split
  · exact Script.Each.raise
  apply Script.Each.bind
  · apply each_commit
    intro o s
    refine Tx.wp_mono wp_attempt_mfa (fun x t ht => ?_) fun e t _ => ?_
    · obtain ⟨now, row⟩ := x
      refine ⟨fun _ => ht, fun hreturned => (hreturned ?_).elim⟩
      cases row with
      | none => rfl
      | some a =>
          simp only [Script.returned_bind, Script.returned_ok, Option.bind_some]
          split <;> rfl
    · exact ⟨fun _ => ⟨rfl, rfl⟩, fun hreturned => (hreturned rfl).elim⟩
  · rintro ⟨now, row⟩
    cases row with
    | none => exact Script.Each.raise
    | some a =>
        dsimp only
        split
        · exact Script.Each.raise
        apply Script.Each.bind _ fun _ => Script.Each.pure
        apply each_commit
        intro o s
        refine Tx.wp_mono wp_login_presents (fun x t ht => ?_) fun e t _ => ?_
        · exact ⟨fun hreturned => (by cases hreturned), fun _ => ht⟩
        · exact ⟨fun _ => ⟨rfl, rfl⟩, fun hreturned => (hreturned rfl).elim⟩

/-- What removing a second factor does. -/
theorem wp_removes {admin code : String} {o : AuthInput} {s : AuthStore} :
    (mfaDisableTx crypto admin code o).wp (fun _ t => Removes crypto admin code o s t)
      (fun _ _ => True) s := by
  unfold mfaDisableTx dropSessions note
  simp only [Tx.wp_bind, Tx.wp_read, Tx.wp_demand, Tx.wp_ofExcept, Tx.wp_write, implies_true,
    and_true]
  exact fun row hrow row' hverify => ⟨row, row', hrow, hverify, rfl⟩

/-- What the actions of a removal do. -/
theorem each_mfaDisable {p : Principal} {password code : String} :
    (authScript crypto (.mfaDisable p password code)).Each
      (Acts crypto (.mfaDisable p password code)) := by
  apply Script.Each.bind _ fun _ => Script.Each.pure
  unfold mfaDisable
  split
  · exact Script.Each.raise
  apply Script.Each.bind
  · apply each_read
    intro o s
    refine ⟨fun _ => ⟨rfl, rfl⟩, fun hreturned => (hreturned ?_).elim⟩
    simp only [Script.returned_bind, Script.returned_ok, Option.bind_some]
    split
    · rfl
    · split <;> rfl
  · intro hash
    cases hash with
    | none => exact Script.Each.raise
    | some hash =>
        dsimp only
        split
        · exact Script.Each.raise
        apply each_commit
        intro o s
        simp only [note, Tx.wp_bind, Tx.wp_write]
        refine Tx.wp_mono wp_removes (fun _ t ht => ?_) fun _ _ _ => ?_
        · exact ⟨fun hreturned => (by cases hreturned), fun _ => ht⟩
        · exact ⟨fun _ => ⟨rfl, rfl⟩, fun hreturned => (hreturned rfl).elim⟩

/-- What the actions of a confirmation do. -/
theorem each_mfaEnable {p : Principal} {code : String} :
    (authScript crypto (.mfaEnable p code)).Each (Acts crypto (.mfaEnable p code)) := by
  apply Script.Each.bind _ fun _ => Script.Each.pure
  unfold mfaEnable
  split
  · exact Script.Each.raise
  apply each_commit
  intro o s
  have hrejected : Acts crypto (.mfaEnable p code) o s s (.done (.error .integrity)) :=
    ⟨fun _ => ⟨rfl, rfl⟩, fun hreturned => (hreturned rfl).elim⟩
  simp only [writeMfa, dropSessions, note, Tx.wp_bind, Tx.wp_read, Tx.wp_demand, Tx.wp_ofExcept,
    Tx.wp_write, Tx.wp_pure]
  refine ⟨fun row hrow => ⟨fun secret hsecret => ⟨fun matched hmatched => ⟨fun counter hcounter =>
    ⟨fun hreturned => (by cases hreturned), fun _ => ⟨rfl, row, secret, counter, ?_⟩⟩,
      fun _ => hrejected⟩, fun _ _ => hrejected⟩, fun _ => hrejected⟩, fun _ => hrejected⟩
  obtain ⟨hrow, hpending⟩ := Option.filter_eq_some_iff.mp hrow
  obtain ⟨hmem, -, hcode⟩ := matchStep_some (hcounter ▸ hmatched)
  have henabled : row.enabled = false := by simpa using (Bool.and_eq_true_iff.mp hpending).2
  exact ⟨hrow, henabled, hsecret, hmem, hcode, rfl⟩

/-- What the actions of a preparation do. -/
theorem each_mfaSetup {p : Principal} {password : String} :
    (authScript crypto (.mfaSetup p password)).Each (Acts crypto (.mfaSetup p password)) := by
  apply Script.Each.bind _ fun _ => Script.Each.pure
  unfold mfaSetup
  split
  · exact Script.Each.raise
  apply Script.Each.bind
  · exact each_read fun o s => Or.inl rfl
  · rintro ⟨_ | a, old⟩
    · exact Script.Each.raise
    · dsimp only
      split
      · exact Script.Each.raise
      split
      · exact Script.Each.raise
      · exact each_commit fun o s => Or.inr ⟨_, rfl⟩

/-- A transaction keeps the second factors. -/
theorem each_kept {α : Type} {name : AuthAction} {body : AuthInput → AuthTx α}
    {f : AuthScript α → AuthScript AuthResult} (call : AuthCall)
    (hcall : ∀ o s t rest, t.mfa = s.mfa → Acts crypto call o s t rest)
    (h : ∀ o s, (body o).wp (fun _ t => t.mfa = s.mfa) (fun _ _ => True) s) :
    (commit name body).Each fun o s t rest => Acts crypto call o s t (f rest) := by
  apply each_commit
  intro o s
  refine Tx.wp_mono (h o s) (fun _ t ht => hcall o s t _ ht) fun _ _ _ => hcall o s s _ rfl

/-- What the actions of a reading do. -/
theorem each_current {cookie authorization : String} :
    (authScript crypto (.current cookie authorization)).Each
      (Acts crypto (.current cookie authorization)) := by
  apply Script.Each.bind _ fun _ => Script.Each.pure
  apply Script.Each.perform
  intro o s
  simp only [Tx.wp_bind, Tx.wp_read, Tx.wp_ofExcept]
  exact ⟨fun _ _ => rfl, fun _ _ => rfl⟩

/-- A password is written. -/
theorem wp_writePassword_mfa {admin password hash message : String} {s : AuthStore} :
    (writePassword crypto admin password hash message).wp (fun _ t => t.mfa = s.mfa)
      (fun _ _ => True) s := by
  unfold writePassword note
  simp only [Tx.wp_bind, Tx.wp_read, Tx.wp_require, Tx.wp_write, implies_true, and_true]
  intro _
  cases s.admins.get? admin with
  | none => rfl
  | some row => rfl

/-- Editing an account touches no second factor. -/
theorem wp_adminEdit_mfa {username : String} {disabled : Option Bool} {password : Option String}
    {values : Option Permissions} {o : AuthInput} {s : AuthStore} :
    (adminEditTx crypto username disabled password values o).wp (fun _ t => t.mfa = s.mfa)
      (fun _ _ => True) s := by
  have hstate : ∀ t : AuthStore, t.mfa = s.mfa →
      (setDisabled username disabled).wp (fun _ u => u.mfa = s.mfa) (fun _ _ => True) t := by
    intro t ht
    cases disabled with
    | none => exact ht
    | some disabled => exact ht
  have hedit : ∀ (t : AuthStore) (role : Role), t.mfa = s.mfa →
      (editRow username role disabled values).wp (fun _ u => u.mfa = s.mfa)
        (fun _ _ => True) t := by
    intro t role ht
    unfold editRow
    cases values with
    | none => exact hstate t ht
    | some values =>
        simp only [Tx.wp_bind, Tx.wp_ofExcept, Tx.wp_write, implies_true, and_true]
        exact fun _ _ => hstate _ ht
  unfold adminEditTx
  simp only [Tx.wp_bind, Tx.wp_ofExcept, Tx.wp_read, Tx.wp_demand, Tx.wp_require, implies_true,
    and_true]
  intro hashed _ row _ _
  refine Tx.wp_mono (hedit s row.role rfl) (fun _ t ht => ?_) fun _ _ _ => trivial
  cases hashed with
  | none => exact ht
  | some hashed =>
      simp only [Tx.wp_bind]
      refine Tx.wp_mono wp_writePassword_mfa (fun _ u hu => ?_) fun _ _ _ => trivial
      exact hu.trans ht

/-- What the actions of an edit do. -/
theorem each_adminEdit {actorRole : Option Role} {username : String} {disabled : Option Bool}
    {password : Option String} {values : Option Permissions} :
    (authScript crypto (.adminEdit actorRole username disabled password values)).Each
      (Acts crypto (.adminEdit actorRole username disabled password values)) := by
  apply Script.Each.bind _ fun _ => Script.Each.pure
  unfold adminEdit
  split
  · exact Script.Each.raise
  · exact each_kept (.adminEdit actorRole username disabled password values) (fun _ _ _ _ ht => ht)
      fun _ _ => wp_adminEdit_mfa

/-- What the actions of a change of password do. -/
theorem each_changePassword {p : Principal} {old new : String} :
    (authScript crypto (.changePassword p old new)).Each
      (Acts crypto (.changePassword p old new)) := by
  apply Script.Each.bind _ fun _ => Script.Each.pure
  unfold changePassword
  split
  · exact Script.Each.raise
  apply Script.Each.bind
  · exact each_read fun _ _ => rfl
  · intro hash
    cases hash with
    | none => exact Script.Each.raise
    | some hash =>
        dsimp only
        split
        · exact Script.Each.raise
        apply each_kept (.changePassword p old new) fun _ _ _ _ ht => ht
        intro o s
        unfold changePasswordTx
        simp only [note, Tx.wp_bind, Tx.wp_write, Tx.wp_ofExcept, implies_true, and_true]
        intro _ _
        exact Tx.wp_mono wp_writePassword_mfa (fun _ _ ht => ht) fun _ _ _ => trivial

/-- What the actions of a revocation do. -/
theorem each_revokeSession {p : Principal} {publicId : String} :
    (authScript crypto (.revokeSession p publicId)).Each
      (Acts crypto (.revokeSession p publicId)) := by
  apply Script.Each.bind _ fun _ => Script.Each.pure
  unfold revokeSession
  split
  · split
    · exact Script.Each.raise
    · apply each_kept (.revokeSession p publicId) fun _ _ _ _ ht => ht
      intro o s
      simp only [Tx.wp_bind, Tx.wp_read, Tx.wp_demand, Tx.wp_write, Tx.wp_pure, implies_true,
        and_true]
  · exact Script.Each.raise

/-- What the actions of a revocation of the others do. -/
theorem each_revokeOtherSessions {p : Principal} :
    (authScript crypto (.revokeOtherSessions p)).Each
      (Acts crypto (.revokeOtherSessions p)) := by
  apply Script.Each.bind _ fun _ => Script.Each.pure
  unfold revokeOtherSessions
  split
  · exact each_kept (.revokeOtherSessions p) (fun _ _ _ _ ht => ht) fun _ _ => rfl
  · exact Script.Each.raise

/-- What the actions of every method do to the second factors. -/
theorem authScript_each (call : AuthCall) : (authScript crypto call).Each (Acts crypto call) := by
  cases call with
  | login => exact each_login
  | current => exact each_current
  | adminEdit => exact each_adminEdit
  | changePassword => exact each_changePassword
  | mfaSetup => exact each_mfaSetup
  | mfaEnable => exact each_mfaEnable
  | mfaDisable => exact each_mfaDisable
  | revokeSession => exact each_revokeSession
  | revokeOtherSessions => exact each_revokeOtherSessions

end Methods

/-! ## Uses of an enrolment -/

/-- An event of the system of all calls. -/
abbrev AuthStep := PoolEvent AuthCall AuthInput (Table String RobotKey)

deriving instance DecidableEq for AuthCall

/-- An accepted code: when it was given, its text and what it was accepted as. -/
structure FactorUse where
  now : ℚ
  code : String
  factor : Factor
deriving DecidableEq, Repr

/-- The account and the code of a call that a second factor authenticates. -/
def presented : AuthCall → Option (String × String)
  | .login username _ otp _ _ _ => some (username, otp)
  | .mfaDisable p _ code => some (p.id, code)
  | _ => none

/-- How a call was authenticated at the row of an enrolment. -/
def usedBy (admin : String) (row : MfaRow) (o : AuthInput) (call : AuthCall) :
    Option FactorUse :=
  (presented call).bind fun given =>
    if given.1 = admin then
      (factorOf crypto o.now row given.2).map fun factor => ⟨o.now, given.2, factor⟩
    else none

/-- How a call of an enrolled administrator was authenticated, if one was by an event. -/
def useOf (admin : String) (w : AuthSystem) (e : AuthStep) (w' : AuthSystem) :
    Option FactorUse :=
  match e with
  | .run i o =>
      (w'.returned? i).bind fun answer =>
        (w.store.enrolment admin).bind fun row => usedBy crypto admin row o answer.1
  | _ => none

/-- The uses of an enrolment in a run, until its row is deleted. -/
def usesOf (admin : String) (w : AuthSystem) : List AuthStep → List FactorUse
  | [] => []
  | e :: es =>
      if w.store.enrolment admin = none then []
      else
        match w.next (authScript crypto) newKeys e with
        | none => []
        | some w' => (useOf crypto admin w e w').toList ++ usesOf admin w' es

/-- What codes can be accepted after a step, with the digests of some recovery codes. -/
structure SingleUse (secret : String) (last : ℤ) (digests : List String)
    (uses : List FactorUse) : Prop where
  /-- The accepted steps strictly increase. -/
  increasing : (last :: uses.filterMap fun u => u.factor.step?).Pairwise (· < ·)
  /-- A one-time password is that of a step within one of the current one. -/
  near : ∀ u ∈ uses, ∀ counter, u.factor = .step counter →
    |counter - (u.now / 30).floor| ≤ 1 ∧ crypto.totp secret counter = u.code
  genuine : ∀ u ∈ uses, ∀ digest, u.factor = .recovery digest → digest = crypto.digest u.code
  /-- Each recovery code is accepted at most once. -/
  single : ∀ digest,
    (uses.filterMap fun u => u.factor.recovery?).count digest ≤ digests.count digest

section Uses

variable {crypto} {w w' : AuthSystem} {admin secret : String} {row : MfaRow}

/-- The part of a row that decides which codes are accepted. -/
def MfaRow.Agrees (row row' : MfaRow) : Prop :=
  row'.secret = row.secret ∧ row'.lastStep = row.lastStep ∧ row'.recovery = row.recovery

/-- What a row is after a use, if it is not deleted. -/
inductive MfaRow.Spent (crypto : AuthCrypto) (secret : String) (row : MfaRow) :
    FactorUse → MfaRow → Prop
  | step {now : ℚ} {code : String} {counter : ℤ} (hlast : row.lastStep < counter)
      (hnear : |counter - (now / 30).floor| ≤ 1) (hcode : crypto.totp secret counter = code) :
      Spent crypto secret row ⟨now, code, .step counter⟩ { row with lastStep := counter }
  | recovery {now : ℚ} {code : String} (hmem : crypto.digest code ∈ row.recovery) :
      Spent crypto secret row ⟨now, code, .recovery (crypto.digest code)⟩
        { row with recovery := row.recovery.erase (crypto.digest code) }

/-- An accepted time step is next to the current one. -/
theorem near_of_mem_steps {now : ℚ} {counter : ℤ} (h : counter ∈ steps now) :
    |counter - (now / 30).floor| ≤ 1 := by
  simp only [steps, List.mem_cons, List.not_mem_nil, or_false] at h
  rw [abs_le]
  omega

/-- An accepted code spends a step or a recovery code. -/
theorem verifyMfa_spent {now : ℚ} {code : String} {row' : MfaRow}
    (hsecret : crypto.decrypt row.secret = some secret)
    (h : verifyMfa crypto now row code = .ok row') :
    ∃ factor, factorOf crypto now row code = some factor ∧
      row.Spent crypto secret ⟨now, code, factor⟩ row' := by
  unfold factorOf
  rw [h]
  rcases verifyMfa_ok h with ⟨text, counter, htext, hmem, hlast, hcode, rfl⟩ | ⟨hmem, rfl⟩
  · obtain rfl := Option.some.inj (hsecret.symm.trans htext)
    exact ⟨.step counter, by simp only [hlast, if_true], .step hlast (near_of_mem_steps hmem) hcode⟩
  · exact ⟨.recovery (crypto.digest code), by simp only [lt_irrefl, if_false], .recovery hmem⟩

/-- The uses after a use. -/
theorem SingleUse.cons {u : FactorUse} {row' : MfaRow} {uses : List FactorUse}
    (hspent : row.Spent crypto secret u row')
    (h : SingleUse crypto secret row'.lastStep row'.recovery uses) :
    SingleUse crypto secret row.lastStep row.recovery (u :: uses) := by
  cases hspent with
  | step hlast hnear hcode =>
      rename_i now code counter
      refine ⟨?_, ?_, ?_, h.single⟩
      · have hsteps : ((⟨now, code, .step counter⟩ : FactorUse) :: uses).filterMap
            (fun u => u.factor.step?) = counter :: uses.filterMap fun u => u.factor.step? := rfl
        rw [hsteps, ← List.isChain_iff_pairwise, List.isChain_cons_cons]
        exact ⟨hlast, List.isChain_iff_pairwise.mpr h.increasing⟩
      · intro u hu k hk
        rcases List.mem_cons.mp hu with rfl | hu
        · obtain rfl := Factor.step.inj hk
          exact ⟨hnear, hcode⟩
        · exact h.near u hu k hk
      · intro u hu d hd
        rcases List.mem_cons.mp hu with rfl | hu
        · cases hd
        · exact h.genuine u hu d hd
  | recovery hmem =>
      rename_i now code
      refine ⟨h.increasing, ?_, ?_, ?_⟩
      · intro u hu k hk
        rcases List.mem_cons.mp hu with rfl | hu
        · cases hk
        · exact h.near u hu k hk
      · intro u hu d hd
        rcases List.mem_cons.mp hu with rfl | hu
        · exact (Factor.recovery.inj hd).symm
        · exact h.genuine u hu d hd
      · intro d
        have hsingle := h.single d
        have hpositive := List.count_pos_iff.mpr hmem
        rw [List.count_erase] at hsingle
        have hdigests : ((⟨now, code, .recovery (crypto.digest code)⟩ : FactorUse) ::
            uses).filterMap (fun u => u.factor.recovery?) =
              crypto.digest code :: uses.filterMap fun u => u.factor.recovery? := rfl
        rw [hdigests, List.count_cons]
        by_cases hd : crypto.digest code = d
        · subst hd
          simp only [BEq.rfl, if_true] at hsingle ⊢
          omega
        · simp only [beq_eq_false_iff_ne.mpr hd, Bool.false_eq_true, if_false] at hsingle ⊢
          omega

/-- No use is a single use. -/
theorem SingleUse.nil {last : ℤ} {digests : List String} :
    SingleUse crypto secret last digests [] where
  increasing := List.pairwise_singleton _ _
  near := fun _ hu => (List.not_mem_nil hu).elim
  genuine := fun _ hu => (List.not_mem_nil hu).elim
  single := fun _ => Nat.zero_le _

/-- An enrolment is a row that is enabled. -/
theorem enrolment_eq_some_iff {s : AuthStore} :
    s.enrolment admin = some row ↔ s.mfa.get? admin = some row ∧ row.enabled = true :=
  Option.filter_eq_some_iff

/-- Second factors that are the same are enrolled in the same way. -/
theorem enrolment_congr {s t : AuthStore} (h : t.mfa = s.mfa) :
    t.enrolment admin = s.enrolment admin := by
  unfold AuthStore.enrolment
  rw [h]

/-- Another row changes. -/
theorem enrolment_update {s t : AuthStore} {other : String} {g : MfaRow → MfaRow}
    (h : t.mfa = s.mfa.update other g) (hne : other ≠ admin) :
    t.enrolment admin = s.enrolment admin := by
  unfold AuthStore.enrolment
  rw [h, Table.get?_update, if_neg (Ne.symm hne)]

/-- The row of the enrolment changes. -/
theorem enrolment_update_self {s t : AuthStore} {row' : MfaRow}
    (h : t.mfa = s.mfa.update admin fun _ => row') (hrow : s.enrolment admin = some row)
    (henabled : row'.enabled = true) : t.enrolment admin = some row' := by
  rw [enrolment_eq_some_iff, h, Table.get?_update, if_pos rfl, (enrolment_eq_some_iff.mp hrow).1]
  exact ⟨rfl, henabled⟩

/-- The enrolment after a row was erased. -/
theorem enrolment_erase {s t : AuthStore} {other : String} (h : t.mfa = s.mfa.erase other) :
    t.enrolment admin = if other = admin then none else s.enrolment admin := by
  unfold AuthStore.enrolment
  rw [h, Table.get?_erase]
  by_cases hne : admin = other
  · rw [if_pos hne, if_pos hne.symm]
    rfl
  · rw [if_neg hne, if_neg (Ne.symm hne)]

/-- A pending secret leaves an enrolment as it is. -/
theorem enrolment_prepares {s t : AuthStore} {other : String} (h : Prepares other s t)
    (hrow : s.enrolment admin = some row) :
    ∃ row', t.enrolment admin = some row' ∧ row.Agrees row' := by
  obtain ⟨pending, hmfa⟩ := h
  obtain ⟨hget, henabled⟩ := enrolment_eq_some_iff.mp hrow
  simp only [enrolment_eq_some_iff, hmfa, Table.get?_upsert]
  by_cases hne : admin = other
  · subst hne
    rw [if_pos rfl, hget]
    exact ⟨_, ⟨rfl, henabled⟩, rfl, rfl, rfl⟩
  · rw [if_neg hne]
    exact ⟨row, ⟨hget, henabled⟩, rfl, rfl, rfl⟩

/-- An accepted code used a factor. -/
theorem factorOf_of_ok {now : ℚ} {code : String} {row' : MfaRow}
    (h : verifyMfa crypto now row code = .ok row') :
    ∃ factor, factorOf crypto now row code = some factor := by
  unfold factorOf
  rw [h]
  exact ⟨_, rfl⟩

/-- What the actions of a call do that presents a code. -/
theorem acts_presented {s t : AuthStore} {o : AuthInput} {k : AuthCall} {code : String}
    {rest : AuthScript AuthResult} (hgiven : presented k = some (admin, code))
    (h : Acts crypto k o s t rest) :
    (rest.returned = none → Untouched s t) ∧ (rest.returned ≠ none → ∀ row,
      s.enrolment admin = some row → ∃ row', verifyMfa crypto o.now row code = .ok row') := by
  cases k with
  | login username password otp source seconds agent =>
      obtain ⟨rfl, rfl⟩ := Prod.mk.inj (Option.some.inj hgiven)
      refine ⟨h.1, fun hreturned row hrow => ?_⟩
      rcases h.2 hreturned with ⟨hnone, -⟩ | ⟨found, row', hfound, hverify, -⟩
      · rw [hrow] at hnone
        cases hnone
      · obtain rfl := Option.some.inj (hrow.symm.trans hfound)
        exact ⟨row', hverify⟩
  | mfaDisable p password given =>
      obtain ⟨rfl, rfl⟩ := Prod.mk.inj (Option.some.inj hgiven)
      refine ⟨h.1, fun hreturned row hrow => ?_⟩
      obtain ⟨found, row', hfound, hverify, -⟩ := h.2 hreturned
      obtain rfl := Option.some.inj (hrow.symm.trans hfound)
      exact ⟨row', hverify⟩
  | current | adminEdit | changePassword | mfaSetup | mfaEnable | revokeSession
  | revokeOtherSessions => cases hgiven

section Threads

variable {i : ℕ} {o : AuthInput} {k : AuthCall} {rest : AuthScript AuthResult}

/-- A call that goes on uses nothing. -/
theorem useOf_of_pending (ht : w'.threads[i]? = some ⟨k, rest⟩) (h : rest.returned = none) :
    useOf crypto admin w (.run i o) w' = none := by
  simp only [useOf, Pool.returned?, ht, Option.bind_some, h, Option.map_none, Option.bind_none]

/-- A call that returns uses what it presented. -/
theorem useOf_of_returned (ht : w'.threads[i]? = some ⟨k, rest⟩) (h : rest.returned ≠ none)
    (hrow : w.store.enrolment admin = some row) :
    useOf crypto admin w (.run i o) w' = usedBy crypto admin row o k := by
  obtain ⟨r, hr⟩ := Option.ne_none_iff_exists'.mp h
  simp only [useOf, Pool.returned?, ht, Option.bind_some, hr, Option.map_some, hrow]

/-- A call that presents no code for the account. -/
theorem useOf_of_other (ht : w'.threads[i]? = some ⟨k, rest⟩)
    (hrow : w.store.enrolment admin = some row)
    (hother : ∀ code, presented k ≠ some (admin, code)) :
    useOf crypto admin w (.run i o) w' = none := by
  by_cases h : rest.returned = none
  · exact useOf_of_pending ht h
  rw [useOf_of_returned ht h hrow]
  unfold usedBy
  cases hpresented : presented k with
  | none => rfl
  | some given =>
      have hne : given.1 ≠ admin := by
        rintro rfl
        exact hother given.2 hpresented
      simp only [Option.bind_some, if_neg hne]

/-- A code of the account is accepted. -/
theorem useOf_of_verified {code : String} {row' : MfaRow}
    (ht : w'.threads[i]? = some ⟨k, rest⟩) (h : rest.returned ≠ none)
    (hrow : w.store.enrolment admin = some row) (hgiven : presented k = some (admin, code))
    (hsecret : crypto.decrypt row.secret = some secret)
    (hverify : verifyMfa crypto o.now row code = .ok row') :
    ∃ factor, useOf crypto admin w (.run i o) w' = some ⟨o.now, code, factor⟩ ∧
      row.Spent crypto secret ⟨o.now, code, factor⟩ row' := by
  obtain ⟨factor, hfactor, hspent⟩ := verifyMfa_spent hsecret hverify
  refine ⟨factor, ?_, hspent⟩
  rw [useOf_of_returned ht h hrow]
  simp only [usedBy, hgiven, Option.bind_some, if_true, hfactor, Option.map_some]

end Threads

/-- A verification leaves whether the factor is enabled. -/
theorem verifyMfa_enabled {now : ℚ} {code : String} {row' : MfaRow}
    (h : verifyMfa crypto now row code = .ok row') : row'.enabled = row.enabled := by
  rcases verifyMfa_ok h with ⟨_, _, _, _, _, _, rfl⟩ | ⟨_, rfl⟩
  · rfl
  · rfl

/-- An event uses nothing of an enrolment and leaves it, or it accepts a code. -/
def Uses (crypto : AuthCrypto) (admin : String) (row : MfaRow) (secret : String) (w : AuthSystem)
    (e : AuthStep) (w' : AuthSystem) : Prop :=
  (useOf crypto admin w e w' = none ∧
      ∃ row', w'.store.enrolment admin = some row' ∧ row.Agrees row') ∨
    ∃ u row', useOf crypto admin w e w' = some u ∧ row.Spent crypto secret u row' ∧
      (w'.store.enrolment admin = none ∨ w'.store.enrolment admin = some row')

/-- Second factors that stay keep the enrolment. -/
theorem agrees_of_untouched (hrow : w.store.enrolment admin = some row)
    (hmfa : w'.store.mfa = w.store.mfa) :
    ∃ row', w'.store.enrolment admin = some row' ∧ row.Agrees row' :=
  ⟨row, (enrolment_congr hmfa).trans hrow, rfl, rfl, rfl⟩

section Calls

variable {i : ℕ} {o : AuthInput} {rest : AuthScript AuthResult}

/-- A login accepts a code of the account that it names, or uses nothing. -/
theorem login_uses {username password otp source agent : String} {seconds : ℤ}
    (hrow : w.store.enrolment admin = some row) (hsecret : crypto.decrypt row.secret = some secret)
    (ht : w'.threads[i]? = some ⟨.login username password otp source seconds agent, rest⟩)
    (hdone : Acts crypto (.login username password otp source seconds agent) o w.store w'.store
      rest) : Uses crypto admin row secret w (.run i o) w' := by
  by_cases h : rest.returned = none
  · exact Or.inl ⟨useOf_of_pending ht h, agrees_of_untouched hrow (hdone.1 h).1⟩
  have hpresents : Presents crypto username otp o w.store w'.store := hdone.2 h
  by_cases hname : username = admin
  · subst hname
    rcases hpresents with ⟨hnone, -⟩ | ⟨found, row', hfound, hverify, hmfa⟩
    · rw [hrow] at hnone
      cases hnone
    obtain rfl := Option.some.inj (hrow.symm.trans hfound)
    obtain ⟨factor, huse, hspent⟩ := useOf_of_verified ht h hrow rfl hsecret hverify
    have henabled : row'.enabled = true :=
      (verifyMfa_enabled hverify).trans (enrolment_eq_some_iff.mp hrow).2
    exact Or.inr ⟨_, row', huse, hspent, Or.inr (enrolment_update_self hmfa hrow henabled)⟩
  · have hother : ∀ code, presented (.login username password otp source seconds agent) ≠
        some (admin, code) := by
      intro code hgiven
      exact hname (Prod.mk.inj (Option.some.inj hgiven)).1
    refine Or.inl ⟨useOf_of_other ht hrow hother, ?_⟩
    rcases hpresents with ⟨-, hmfa⟩ | ⟨_, row', -, -, hmfa⟩
    · exact agrees_of_untouched hrow hmfa
    · exact ⟨row, (enrolment_update hmfa hname).trans hrow, rfl, rfl, rfl⟩

/-- A second factor is removed with a code of its account. -/
theorem mfaDisable_uses {p : Principal} {password code : String}
    (hrow : w.store.enrolment admin = some row) (hsecret : crypto.decrypt row.secret = some secret)
    (ht : w'.threads[i]? = some ⟨.mfaDisable p password code, rest⟩)
    (hdone : Acts crypto (.mfaDisable p password code) o w.store w'.store rest) :
    Uses crypto admin row secret w (.run i o) w' := by
  by_cases h : rest.returned = none
  · exact Or.inl ⟨useOf_of_pending ht h, agrees_of_untouched hrow (hdone.1 h).1⟩
  obtain ⟨found, row', hfound, hverify, hmfa⟩ := hdone.2 h
  have herased : w'.store.enrolment admin =
      if p.id = admin then none else w.store.enrolment admin := enrolment_erase hmfa
  by_cases hname : p.id = admin
  · subst hname
    obtain rfl := Option.some.inj (hrow.symm.trans hfound)
    obtain ⟨factor, huse, hspent⟩ := useOf_of_verified ht h hrow rfl hsecret hverify
    rw [if_pos rfl] at herased
    exact Or.inr ⟨_, row', huse, hspent, Or.inl herased⟩
  · rw [if_neg hname] at herased
    have hother : ∀ given, presented (.mfaDisable p password code) ≠ some (admin, given) := by
      intro given hgiven
      exact hname (Prod.mk.inj (Option.some.inj hgiven)).1
    exact Or.inl ⟨useOf_of_other ht hrow hother, row, herased.trans hrow, rfl, rfl, rfl⟩

/-- A second factor is confirmed only where none is enrolled. -/
theorem mfaEnable_uses {p : Principal} {code : String}
    (hrow : w.store.enrolment admin = some row)
    (ht : w'.threads[i]? = some ⟨.mfaEnable p code, rest⟩)
    (hdone : Acts crypto (.mfaEnable p code) o w.store w'.store rest) :
    Uses crypto admin row secret w (.run i o) w' := by
  have hother : ∀ given, presented (.mfaEnable p code) ≠ some (admin, given) :=
    fun _ hgiven => by cases hgiven
  refine Or.inl ⟨useOf_of_other ht hrow hother, ?_⟩
  by_cases h : rest.returned = none
  · exact agrees_of_untouched hrow (hdone.1 h).1
  obtain ⟨-, found, _, _, hfound, hdisabled, -, -, -, hmfa⟩ := hdone.2 h
  have hname : p.id ≠ admin := by
    rintro rfl
    obtain ⟨hget, henabled⟩ := enrolment_eq_some_iff.mp hrow
    obtain rfl := Option.some.inj (hget.symm.trans hfound)
    rw [hdisabled] at henabled
    cases henabled
  exact ⟨row, (enrolment_update hmfa hname).trans hrow, rfl, rfl, rfl⟩

/-- Preparing a second factor leaves the enrolled ones. -/
theorem mfaSetup_uses {p : Principal} {password : String}
    (hrow : w.store.enrolment admin = some row)
    (ht : w'.threads[i]? = some ⟨.mfaSetup p password, rest⟩)
    (hdone : Acts crypto (.mfaSetup p password) o w.store w'.store rest) :
    Uses crypto admin row secret w (.run i o) w' := by
  have hother : ∀ given, presented (.mfaSetup p password) ≠ some (admin, given) :=
    fun _ hgiven => by cases hgiven
  refine Or.inl ⟨useOf_of_other ht hrow hother, ?_⟩
  rcases hdone with hmfa | hprepares
  · exact agrees_of_untouched hrow hmfa
  · exact enrolment_prepares hprepares hrow

end Calls

/-- What an event does to an enrolment: it uses nothing, or it accepts a code. -/
theorem enrolment_step {e : AuthStep} (hacts : w.Each (Acts crypto))
    (hstep : AuthSystem.Step crypto w e w') (hrow : w.store.enrolment admin = some row)
    (hsecret : crypto.decrypt row.secret = some secret) : Uses crypto admin row secret w e w' := by
  cases e with
  | enter k =>
      cases hstep
      exact Or.inl ⟨rfl, agrees_of_untouched hrow rfl⟩
  | answer i =>
      simp only [AuthSystem.Step, Pool.Step, Pool.next] at hstep
      split at hstep
      · cases hstep
        exact Or.inl ⟨rfl, agrees_of_untouched hrow rfl⟩
      · cases hstep
  | crash =>
      cases hstep
      exact Or.inl ⟨rfl, agrees_of_untouched hrow rfl⟩
  | outside keys =>
      cases hstep
      exact Or.inl ⟨rfl, agrees_of_untouched hrow rfl⟩
  | run i o =>
      obtain ⟨k, rest, ht, hdone⟩ := hacts.acted hstep
      cases k with
      | login username password otp source seconds agent =>
          exact login_uses hrow hsecret ht hdone
      | mfaDisable p password code => exact mfaDisable_uses hrow hsecret ht hdone
      | mfaEnable p code => exact mfaEnable_uses hrow ht hdone
      | mfaSetup p password => exact mfaSetup_uses hrow ht hdone
      | current | adminEdit | changePassword | revokeSession | revokeOtherSessions =>
          refine Or.inl ⟨useOf_of_other ht hrow fun _ hgiven => ?_, agrees_of_untouched hrow hdone⟩
          cases hgiven

/-- Rows that agree spend the same factors. -/
theorem MfaRow.Agrees.spends {row' : MfaRow} {uses : List FactorUse} (h : row.Agrees row')
    (hsingle : SingleUse crypto secret row'.lastStep row'.recovery uses) :
    SingleUse crypto secret row.lastStep row.recovery uses := by
  obtain ⟨-, hlast, hrecovery⟩ := h
  rw [hlast, hrecovery] at hsingle
  exact hsingle

/-- A use leaves the secret. -/
theorem MfaRow.Spent.secret_eq {u : FactorUse} {row' : MfaRow}
    (h : row.Spent crypto secret u row') : row'.secret = row.secret := by
  cases h with
  | step => rfl
  | recovery => rfl

/-- Without an enrolment nothing is used. -/
theorem usesOf_of_none (h : w.store.enrolment admin = none) (es : List AuthStep) :
    usesOf crypto admin w es = [] := by
  cases es with
  | nil => rfl
  | cons e es => exact if_pos h

/-- The codes that a run accepts for an enrolment are accepted once. -/
theorem usesOf_single {es : List AuthStep} {w'' : AuthSystem} (hacts : w.Each (Acts crypto))
    (hrun : Run (AuthSystem.Step crypto) w es w'') (hrow : w.store.enrolment admin = some row)
    (hsecret : crypto.decrypt row.secret = some secret) :
    SingleUse crypto secret row.lastStep row.recovery (usesOf crypto admin w es) := by
  induction es generalizing w row with
  | nil => exact SingleUse.nil
  | cons e es ih =>
      obtain ⟨w', hstep, hrest⟩ := run_cons_iff.mp hrun
      have hacts' : w'.Each (Acts crypto) := hacts.next authScript_each hstep
      have huses : usesOf crypto admin w (e :: es) =
          (useOf crypto admin w e w').toList ++ usesOf crypto admin w' es := by
        have hnext : w.next (authScript crypto) newKeys e = some w' := hstep
        rw [usesOf, if_neg (by rw [hrow]; exact Option.some_ne_none row), hnext]
      rw [huses]
      rcases enrolment_step hacts hstep hrow hsecret with
        ⟨hnone, row', hrow', hagrees⟩ | ⟨u, row', hsome, hspent, hafter⟩
      · rw [hnone]
        exact hagrees.spends (ih hacts' hrest hrow' (hagrees.1 ▸ hsecret))
      · rw [hsome]
        rcases hafter with hdeleted | hrow'
        · rw [usesOf_of_none hdeleted]
          exact SingleUse.nil.cons hspent
        · exact (ih hacts' hrest hrow' (hspent.secret_eq ▸ hsecret)).cons hspent

end Uses

/-! ## Single use -/

section Runs

variable {crypto}

/-- Codes of a second factor are accepted once.  In every run: a call that is not accepted
takes no code and creates no session, an accepted call of an enrolled administrator has used
a code, and from the first code of an enrolment on no step and no recovery code is accepted
twice. -/
theorem second_factor_single_use {s : AuthStore} {w w' : AuthSystem} {es : List AuthStep}
    {i : ℕ} {o : AuthInput} {call : AuthCall} {rest : AuthScript AuthResult}
    (hrun : Run (AuthSystem.Step crypto) (Pool.start s) es w)
    (hstep : AuthSystem.Step crypto w (.run i o) w')
    (hthread : w'.threads[i]? = some ⟨call, rest⟩) :
    (∀ admin code, presented call = some (admin, code) →
      (rest.returned = none → Untouched w.store w'.store) ∧
      (rest.returned ≠ none → w.store.enrolment admin ≠ none →
        ∃ factor, useOf crypto admin w (.run i o) w' = some ⟨o.now, code, factor⟩)) ∧
    (∀ p code codes, call = .mfaEnable p code → rest.returned = some (.codes codes) →
      ∃ secret counter, |counter - (o.now / 30).floor| ≤ 1 ∧ crypto.totp secret counter = code ∧
        w'.store.enrolment p.id ≠ none ∧
        ∀ later w'', Run (AuthSystem.Step crypto) w' later w'' →
          SingleUse crypto secret counter (codes.map crypto.digest)
            (usesOf crypto p.id w' later)) := by
  have hacts : w.Each (Acts crypto) := Pool.Each.run authScript_each hrun
  obtain ⟨k, found, ht, hdone⟩ := hacts.acted hstep
  obtain ⟨rfl, rfl⟩ := Thread.mk.inj (Option.some.inj (hthread.symm.trans ht))
  constructor
  · intro admin code hgiven
    obtain ⟨hpending, haccepted⟩ := acts_presented hgiven hdone
    refine ⟨hpending, fun hreturned henrolled => ?_⟩
    obtain ⟨row, hrow⟩ := Option.ne_none_iff_exists'.mp henrolled
    obtain ⟨row', hverify⟩ := haccepted hreturned row hrow
    obtain ⟨factor, hfactor⟩ := factorOf_of_ok hverify
    refine ⟨factor, ?_⟩
    rw [useOf_of_returned ht hreturned hrow]
    simp only [usedBy, hgiven, Option.bind_some, if_true, hfactor, Option.map_some]
  · rintro p code codes rfl hreturned
    have hreturned' : rest.returned ≠ none := by
      rw [hreturned]
      exact Option.some_ne_none _
    obtain ⟨hcodes, row, secret, counter, hget, -, hsecret, hmem, hcode, hmfa⟩ :=
      hdone.2 hreturned'
    obtain rfl : codes = o.codes := by
      have heq := Option.some.inj (hreturned.symm.trans hcodes)
      exact AuthResult.codes.inj heq
    have hrow' : w'.store.enrolment p.id =
        some ⟨row.pending, "", true, counter, o.codes.map crypto.digest⟩ := by
      rw [enrolment_eq_some_iff, hmfa, Table.get?_update, if_pos rfl, hget]
      exact ⟨rfl, rfl⟩
    refine ⟨secret, counter, near_of_mem_steps hmem, hcode, ?_, fun later w'' hlater => ?_⟩
    · rw [hrow']
      exact Option.some_ne_none _
    · exact usesOf_single (hacts.next authScript_each hstep) hlater hrow' hsecret

end Runs

/-! ## An enrolment and its codes -/

/-- An input at a time, with a token. -/
def tokenAt (now : ℚ) (token : String) : AuthInput where
  now := now
  salt := 0
  token := token
  csrf := "csrf"
  secret := "secret"
  codes := ["first", "second"]

/-- The owner prepares a second factor, and sends its first code. -/
def enrolmentPrefix : List AuthStep :=
  [.enter (.mfaSetup intruder "old-secret"), .run 0 (tokenAt 0 ""), .run 0 (tokenAt 0 ""),
    .enter (.mfaEnable intruder "")]

/-- Both attempts of a login. -/
def loginAt (thread : ℕ) (now : ℚ) (otp token : String) : List AuthStep :=
  [.enter (.login "root" "old-secret" otp "" 3600 ""), .run thread (tokenAt now token),
    .run thread (tokenAt now token)]

/-- Two logins with one-time passwords, a third one that is refused, a recovery code twice. -/
def enrolmentLogins : List AuthStep :=
  loginAt 2 60 "" "a" ++ loginAt 3 60 "" "b" ++ loginAt 4 60 "" "c" ++
    loginAt 5 30 "second" "d" ++ loginAt 6 30 "second" "e"

/-- After the logins the codes have been used once. -/
theorem second_factor_single_use_enrolled : ∃ w w' : AuthSystem, ∃ secret counter,
    Run (AuthSystem.Step plainCrypto) w enrolmentLogins w' ∧
      SingleUse plainCrypto secret counter ["first", "second"]
        (usesOf plainCrypto "root" w enrolmentLogins) ∧
      usesOf plainCrypto "root" w enrolmentLogins =
        [⟨60, "", .step 2⟩, ⟨60, "", .step 3⟩, ⟨30, "second", .recovery "second"⟩] := by
  have heval : ((enrolmentPrefix.foldlM (Pool.next (authScript plainCrypto) newKeys)
      (Pool.start ownerStore : AuthSystem)).bind fun w =>
        (w.next (authScript plainCrypto) newKeys (.run 1 (tokenAt 30 ""))).bind fun w' =>
          (enrolmentLogins.foldlM (Pool.next (authScript plainCrypto) newKeys) w').map fun _ =>
            (w'.returned? 1, usesOf plainCrypto "root" w' enrolmentLogins)) =
      some (some (.mfaEnable intruder "", .codes ["first", "second"]),
        [⟨60, "", .step 2⟩, ⟨60, "", .step 3⟩, ⟨30, "second", .recovery "second"⟩]) := by
    decide +kernel
  obtain ⟨w, hprefix, heval⟩ := Option.bind_eq_some_iff.mp heval
  obtain ⟨w', hstep, heval⟩ := Option.bind_eq_some_iff.mp heval
  obtain ⟨w'', hlater, hobserved⟩ := Option.map_eq_some_iff.mp heval
  obtain ⟨hreturned, huses⟩ := Prod.mk.inj hobserved
  obtain ⟨⟨call, rest⟩, hthread, hanswer⟩ := Option.bind_eq_some_iff.mp hreturned
  obtain ⟨result, hresult, hpair⟩ := Option.map_eq_some_iff.mp hanswer
  obtain ⟨rfl, rfl⟩ := Prod.mk.inj hpair
  have hsingle := second_factor_single_use (Run.of_eval hprefix) hstep hthread
  obtain ⟨secret, counter, -, -, -, hafter⟩ := hsingle.2 _ _ _ rfl hresult
  exact ⟨w', w'', secret, counter, Run.of_eval hlater, hafter _ _ (Run.of_eval hlater), huses⟩

end Access
end DarkXray
