import Mathlib.Data.Rat.Init
import Mathlib.Algebra.Order.Ring.Rat
import DarkXray.Library.Tables
import DarkXray.Library.Threads

/-!
# Accounts and sessions

{lit}`Auth`: administrators log in with a password and an optional second factor, and change
their credentials.  Every method is a script of the reads and transactions that it performs;
passwords are verified in between, on what a read has found.

The store keeps the history of what has taken effect.

Main results:

- Theorem {lit}`currentPrincipal_spec`: an accepted principal is an enabled administrator,
  and an accepted cookie belongs to a stored session.
-/

namespace DarkXray
namespace Access

open Library

/-! ## Permissions -/

/-- The roles of an administrator. -/
inductive Role where
  | owner
  | reseller
  | readonly
deriving DecidableEq, Repr

/-- A dictionary from permissions to scopes, in its order. -/
abbrev Permissions := List (String × String)

/-- {lit}`PERMISSIONS`. -/
def permissions : List String :=
  ["clients.read", "clients.create", "clients.edit", "clients.delete", "clients.reset",
    "clients.credentials", "clients.ip", "clients.attach", "owners.read", "owners.edit",
    "owners.reset", "finance.read", "system.read", "audit.read", "api.manage", "inbounds.read"]

/-- {lit}`KEY_FORBIDDEN`. -/
def keyForbidden : List String :=
  ["api.manage"]

/-- {lit}`GLOBAL_SCOPE_ONLY`. -/
def globalScopeOnly : List String :=
  ["system.read"]

/-- {lit}`ROLE_ALLOWED`. -/
def roleAllowed : Role → List String
  | .owner => []
  | .reseller =>
      ["clients.read", "clients.create", "clients.edit", "clients.delete", "clients.reset",
        "clients.credentials", "clients.ip", "clients.attach", "owners.read", "finance.read",
        "system.read", "audit.read", "api.manage", "inbounds.read"]
  | .readonly =>
      ["clients.read", "owners.read", "finance.read", "system.read", "audit.read",
        "inbounds.read"]

/-- The exceptions of {lit}`Auth`. -/
inductive AuthError where
  | policy (message : String)
  | denied (message : String)
  | integrity
  /-- The cipher rejects a stored secret. -/
  | invalidToken
  | typeError
deriving DecidableEq, Repr

/-- {lit}`valid_permissions` of given values. -/
def validPermissions (role : Role) (values : Permissions) : Except AuthError Permissions :=
  if role = .owner then .ok []
  else if values.any fun p => p.1 ∉ permissions || p.2 ∉ ["none", "own", "all"] then
    .error (.policy "Invalid permission/scope")
  else if values.any fun p => p.2 ≠ "none" && p.1 ∉ roleAllowed role then
    .error (.policy "Permission exceeds the selected role ceiling")
  else if globalScopeOnly.any fun k => values.lookup k = some "own" then
    .error (.policy "Global permissions use scope all, not own")
  else .ok values

/-- {lit}`_session_permissions`. -/
def sessionPermissions (role : Role) (raw : Permissions) : Permissions :=
  if role = .owner then raw
  else raw.filter fun p => p.1 ∈ roleAllowed role && p.2 ∈ ["own", "all"] &&
    !(p.1 ∈ globalScopeOnly && p.2 = "own")

/-- The scope that a key has of what was requested for it. -/
def keyScope (role : Role) (granted : Permissions) (p : String × String) :
    Option (String × String) :=
  let grant := if role = .owner then "all" else (granted.lookup p.1).getD "none"
  if p.2 = "none" || grant = "none" then none
  else
    let scope := if grant = "own" || p.2 = "own" then "own" else "all"
    if p.1 ∈ keyForbidden || (p.1 ∈ globalScopeOnly && scope = "own") then none
    else some (p.1, scope)

/-! ## Texts -/

/-- The white space of {lit}`str.isspace`. -/
def isSpace (c : Char) : Bool :=
  c.toNat ∈ [0x1c, 0x1d, 0x1e, 0x1f, 0x20, 0x85, 0xa0, 0x1680, 0x2028, 0x2029, 0x202f, 0x205f,
    0x3000] || decide (0x9 ≤ c.toNat ∧ c.toNat ≤ 0xd) ||
    decide (0x2000 ≤ c.toNat ∧ c.toNat ≤ 0x200a)

/-- The first characters of a text. -/
def takeText (n : ℕ) (s : String) : String :=
  String.ofList (s.toList.take n)

/-- {lit}`str.strip`. -/
def strip (s : String) : String :=
  String.ofList (((s.toList.dropWhile isSpace).reverse.dropWhile isSpace).reverse)

/-- {lit}`' '.join(s.split())`, over the characters of a text. -/
def joinWords : List Char → List Char
  | [] => []
  | c :: cs =>
      if isSpace c then
        match joinWords cs with
        | [] => []
        | rest => if (cs.head?.map isSpace).getD true then rest else ' ' :: rest
      else c :: joinWords cs

/-- The source of a login. -/
def cleanSource (source : String) : String :=
  let text := takeText 128 (strip (if source = "" then "unknown" else source))
  if text = "" then "unknown" else text

/-- The user agent of a login. -/
def cleanAgent (agent : String) : String :=
  takeText 300 (String.ofList (joinWords (agent.toList.dropWhile isSpace)))

/-! ## Store -/

/-- A row of {lit}`api_admins`. -/
structure AdminRow where
  role : Role
  passwordHash : String
  permissions : Permissions
  disabled : Bool
deriving DecidableEq, Repr

/-- A row of {lit}`live_sessions`; the key is {lit}`digest`. -/
structure SessionRow where
  adminId : String
  csrf : String
  expiresAt : ℚ
  publicId : String
  createdAt : ℚ
  source : String
  userAgent : String
deriving DecidableEq

/-- A row of {lit}`robot_keys`; the key is {lit}`digest`. -/
structure RobotKey where
  id : String
  adminId : String
  permissions : Permissions
  expiresAt : ℚ
  revoked : Bool
deriving DecidableEq

/-- A row of {lit}`mfa`. -/
structure MfaRow where
  secret : String
  pending : String
  enabled : Bool
  lastStep : ℤ
  recovery : List String
deriving DecidableEq, Repr

/-- A row of {lit}`auth_attempts`. -/
structure AttemptRow where
  start : ℚ
  count : ℕ
deriving DecidableEq

/-- What has taken effect. -/
inductive AuthEvent where
  /-- A session was created. -/
  | created (digest admin : String)
  /-- The credentials of an administrator were changed. -/
  | changed (admin : String)
  /-- A password hash was replaced. -/
  | replaced (admin hash : String)
  /-- A method took effect whose password was verified against a hash. -/
  | acted (admin hash : String)
deriving DecidableEq, Repr

/-- The tables; {lit}`history` has the newest event first. -/
structure AuthStore where
  admins : Table String AdminRow
  sessions : Table String SessionRow
  keys : Table String RobotKey
  mfa : Table String MfaRow
  attempts : Table String AttemptRow
  history : List AuthEvent

/-- Digests, one-time passwords, password hashes and the cipher. -/
structure AuthCrypto where
  digest : String → String
  totp : String → ℤ → String
  passwordHash : String → ℕ → String
  verifyPassword : String → String → Bool
  encrypt : ℕ → String → String
  decrypt : String → Option String

/-- The clock and the random values of an action. -/
structure AuthInput where
  now : ℚ
  salt : ℕ
  token : String
  csrf : String
  secret : String
  codes : List String

/-- {lit}`Principal`, with its actor; the actor of a robot key has no role of its own. -/
structure Principal where
  id : String
  role : Option Role
  permissions : Permissions
  sessionId : Option String
  csrf : String
  keyId : Option String
deriving DecidableEq, Repr

/-- The actions whose condition depends on what was verified before. -/
inductive AuthAction where
  | changePassword (admin verified new : String)
  | mfaDisable (admin verified code : String)
  | adminEdit (admin : String) (password : Option String)
  | plain
deriving DecidableEq

/-- Transactions and scripts. -/
abbrev AuthTx (α : Type) := Tx AuthStore AuthError α

abbrev AuthScript (α : Type) : Type 1 :=
  Script AuthInput AuthAction AuthStore AuthError α

variable (crypto : AuthCrypto)

/-! ## Reads -/

/-- A robot key is accepted. -/
def keyPrincipal (now : ℚ) (authorization : String) (s : AuthStore) :
    Except AuthError Principal :=
  if !"Bearer dkr_".toList.isPrefixOf authorization.toList || 512 < authorization.length then
    .error (.denied "Invalid API key")
  else
    let key := (s.keys.get? (crypto.digest (String.ofList (authorization.toList.drop 7)))).filter
      fun k => !k.revoked && now < k.expiresAt
    match key with
    | none => .error (.denied "API key expired or revoked")
    | some k =>
        match s.admins.get? k.adminId with
        | none => .error (.denied "API key expired or revoked")
        | some a =>
            if a.disabled then .error (.denied "API key expired or revoked")
            else .ok {
              id := k.adminId
              role := none
              permissions := k.permissions.filterMap
                (keyScope a.role (sessionPermissions a.role a.permissions))
              sessionId := none
              csrf := ""
              keyId := some k.id }

/-- A session is accepted. -/
def sessionPrincipal (now : ℚ) (cookie : String) (s : AuthStore) : Except AuthError Principal :=
  if cookie = "" || 256 < cookie.length then .error (.denied "Authentication required")
  else
    match (s.sessions.get? (crypto.digest cookie)).filter fun r => now < r.expiresAt with
    | none => .error (.denied "Session expired or revoked")
    | some r =>
        match s.admins.get? r.adminId with
        | none => .error (.denied "Session expired or revoked")
        | some a =>
            if a.disabled then .error (.denied "Session expired or revoked")
            else .ok {
              id := r.adminId
              role := some a.role
              permissions := sessionPermissions a.role a.permissions
              sessionId := some (crypto.digest cookie)
              csrf := r.csrf
              keyId := none }

/-- {lit}`current`; an absent cookie or header is empty. -/
def currentPrincipal (now : ℚ) (cookie authorization : String) (s : AuthStore) :
    Except AuthError Principal :=
  if authorization ≠ "" then keyPrincipal crypto now authorization s
  else sessionPrincipal crypto now cookie s

/-! ## Second factor -/

/-- {lit}`hmac.compare_digest` of texts. -/
def compareDigest (a b : String) : Except AuthError Bool :=
  if b.toList.all fun c => c.val < 128 then .ok (a = b) else .error .typeError

/-- The first counter whose one-time password is the given code. -/
def matchStep (secret code : String) (tried : ℤ → Bool) :
    List ℤ → Except AuthError (Option ℤ)
  | [] => .ok none
  | counter :: rest =>
      if tried counter then do
        if ← compareDigest (crypto.totp secret counter) code then return some counter
        matchStep secret code tried rest
      else matchStep secret code tried rest

/-- The counters around a time. -/
def steps (now : ℚ) : List ℤ :=
  let step := (now / 30).floor
  [step - 1, step, step + 1]

/-- {lit}`_verify_mfa` with {lit}`consume`: the row after it. -/
def verifyMfa (now : ℚ) (row : MfaRow) (code : String) : Except AuthError MfaRow := do
  let secret ← (crypto.decrypt row.secret).elim (.error .invalidToken) .ok
  match ← matchStep crypto secret code (fun counter => row.lastStep < counter) (steps now) with
  | some counter => return { row with lastStep := counter }
  | none =>
      if crypto.digest code ∈ row.recovery then
        return { row with recovery := row.recovery.erase (crypto.digest code) }
      else .error (.denied "Invalid or already-used two-factor code")

/-! ## Scripts -/

/-- One transaction. -/
def commit {α : Type} (name : AuthAction) (body : AuthInput → AuthTx α) : AuthScript α :=
  Script.perform name fun o => Tx.transaction (body o)

/-- Note what has taken effect. -/
def note (events : List AuthEvent) : AuthTx Unit :=
  Tx.write fun s => { s with history := events ++ s.history }

/-- {lit}`DELETE FROM live_sessions WHERE admin_id=?`. -/
def dropSessions (admin : String) : AuthTx Unit :=
  Tx.write fun s => { s with sessions := s.sessions.filterRows fun _ r => r.adminId ≠ admin }

/-- The first transaction of {lit}`login`: the clock and the account. -/
def attemptTx (username bucket : String) (o : AuthInput) : AuthTx (ℚ × Option AdminRow) := do
  let r ← Tx.read fun s => (s.attempts.get? bucket).filter fun r => o.now - 300 < r.start
  Tx.require (¬ ∃ row, r = some row ∧ 8 ≤ row.count)
    (.denied "Too many login attempts; retry after five minutes")
  let count := (r.map fun row => row.count + 1).getD 1
  let start := (r.map AttemptRow.start).getD o.now
  Tx.write fun s =>
    { s with attempts := s.attempts.upsert bucket ⟨start, count⟩ fun _ => ⟨start, count⟩ }
  let row ← Tx.read fun s => s.admins.get? username
  return (o.now, row)

/-- Write the row of a second factor. -/
def writeMfa (admin : String) (row : MfaRow) : AuthTx Unit :=
  Tx.write fun s => { s with mfa := s.mfa.update admin fun _ => row }

/-- Check the second factor of a login, if it is enabled. -/
def consumeMfa (username otp : String) (o : AuthInput) : AuthTx Unit := do
  let mfa ← Tx.read fun s => (s.mfa.get? username).filter fun m => m.enabled
  match mfa with
  | none => pure ()
  | some row => do
      let row ← Tx.ofExcept (verifyMfa crypto o.now row otp)
      writeMfa username row

/-- Create a session: its token. -/
def insertSession (username bucket source userAgent verified : String) (now : ℚ)
    (sessionSeconds : ℤ) (o : AuthInput) : AuthTx (String × String) := do
  let digest := crypto.digest o.token
  Tx.write fun s => { s with sessions := s.sessions.filterRows fun _ r => now < r.expiresAt }
  let sessions ← Tx.read AuthStore.sessions
  Tx.require (sessions.get? digest = none ∧
    ∀ r ∈ sessions.rows, r.2.publicId ≠ takeText 24 digest) .integrity
  Tx.write fun s => { s with
    sessions := s.sessions.insert digest {
      adminId := username
      csrf := o.csrf
      expiresAt := now + sessionSeconds
      publicId := takeText 24 digest
      createdAt := now
      source := source
      userAgent := userAgent }
    attempts := s.attempts.erase bucket }
  note [.created digest username, .acted username verified]
  return (o.token, o.csrf)

/-- The second transaction of {lit}`login`: the token. -/
def loginTx (username bucket otp source userAgent verified : String) (now : ℚ)
    (sessionSeconds : ℤ) (o : AuthInput) : AuthTx (String × String) := do
  let fresh ← Tx.read fun s => s.admins.get? username
  Tx.require (∃ a, fresh = some a ∧ a.disabled = false ∧ a.passwordHash = verified)
    (.denied "Credentials changed")
  consumeMfa crypto username otp o
  insertSession crypto username bucket source userAgent verified now sessionSeconds o

/-- {lit}`login`. -/
def login (username password otp source : String) (sessionSeconds : ℤ) (userAgent : String) :
    AuthScript (String × Principal) := do
  if ¬ (3600 ≤ sessionSeconds ∧ sessionSeconds ≤ 525600 * 60) then
    Script.raise (.policy "Invalid session lifetime")
  else
    let source := cleanSource source
    let bucket := crypto.digest source
    let (now, row) ← commit .plain (attemptTx username bucket)
    match row with
    | none => Script.raise (.denied "Invalid credentials")
    | some a =>
        if !crypto.verifyPassword password a.passwordHash || a.disabled then
          Script.raise (.denied "Invalid credentials")
        else
          let (token, csrf) ← commit .plain (loginTx crypto username bucket otp source
            (cleanAgent userAgent) a.passwordHash now sessionSeconds)
          return (token, {
            id := username
            role := some a.role
            permissions := sessionPermissions a.role a.permissions
            sessionId := some (crypto.digest token)
            csrf := csrf
            keyId := none })

/-- {lit}`current`. -/
def current (cookie authorization : String) : AuthScript Principal :=
  Script.perform .plain fun o => do
    let found ← Tx.read fun s => currentPrincipal crypto o.now cookie authorization s
    Tx.ofExcept found

/-- {lit}`password_hash`. -/
def passwordHash (password : String) (salt : ℕ) : Except AuthError String :=
  if 8 ≤ password.length ∧ password.length ≤ 512 then .ok (crypto.passwordHash password salt)
  else .error (.policy "Password must be between 8 and 512 characters")

/-- Replace the password hash of an administrator, and read it back. -/
def writePassword (admin password hash message : String) : AuthTx Unit := do
  let old ← Tx.read fun s => s.admins.get? admin
  Tx.write fun s => { s with
    admins := s.admins.update admin fun a => { a with passwordHash := hash } }
  let written ← Tx.read fun s => s.admins.get? admin
  Tx.require (∃ a, written = some a ∧ crypto.verifyPassword password a.passwordHash = true)
    (.policy message)
  match old with
  | none => pure ()
  | some a => note [.replaced admin a.passwordHash]

/-- What a row adds to the number of enabled owners. -/
def AdminRow.enabledOwner (r : AdminRow) : ℕ :=
  if r.role = .owner ∧ r.disabled = false then 1 else 0

/-- The number of enabled administrators with the role owner. -/
def AuthStore.enabledOwners (s : AuthStore) : ℕ :=
  s.admins.total fun _ r => r.enabledOwner

/-- The state of an administrator. -/
def setDisabled (username : String) : Option Bool → AuthTx Unit
  | none => pure ()
  | some disabled =>
      Tx.write fun s => { s with
        admins := s.admins.update username fun a => { a with disabled := disabled } }

/-- The permissions and the state of an administrator. -/
def editRow (username : String) (role : Role) (disabled : Option Bool)
    (values : Option Permissions) : AuthTx Unit := do
  match values with
  | none => pure ()
  | some values => do
      let valid ← Tx.ofExcept (validPermissions role values)
      Tx.write fun s => { s with
        admins := s.admins.update username fun a => { a with permissions := valid } }
  setDisabled username disabled

/-- The transaction of {lit}`admin_edit`, after the hash of the new password. -/
def adminEditTx (username : String) (disabled : Option Bool) (password : Option String)
    (values : Option Permissions) (o : AuthInput) : AuthTx Unit := do
  let hashed ← Tx.ofExcept (password.mapM fun password => passwordHash crypto password o.salt)
  let row ← Tx.read fun s => s.admins.get? username
  let r ← Tx.demand row (.policy "Admin not found")
  let owners ← Tx.read AuthStore.enabledOwners
  Tx.require (¬ (disabled = some true ∧ r.role = .owner ∧ owners ≤ 1))
    (.policy "Cannot disable the last owner")
  editRow username r.role disabled values
  match hashed with
  | none => pure ()
  | some hashed =>
      writePassword crypto username (password.getD "") hashed
        "Admin password verification failed; transaction rolled back"
  dropSessions username
  note [.changed username]

/-- {lit}`admin_edit`; an empty password is none.  The salt of the new hash is drawn before
the transaction, and nothing else sees it. -/
def adminEdit (actorRole : Option Role) (username : String) (disabled : Option Bool)
    (password : Option String) (values : Option Permissions) : AuthScript Unit :=
  if actorRole ≠ some .owner then Script.raise (.denied "Owner required")
  else
    let password := password.filter (· ≠ "")
    commit (.adminEdit username password) (adminEditTx crypto username disabled password values)

/-- The transaction of {lit}`change_password`. -/
def changePasswordTx (admin new : String) (o : AuthInput) : AuthTx Unit := do
  let hashed ← Tx.ofExcept (passwordHash crypto new o.salt)
  writePassword crypto admin new hashed "Password verification failed; transaction rolled back"
  dropSessions admin
  note [.changed admin]

/-- Read the password hash of an administrator. -/
def readHash (admin : String) : AuthScript (Option String) :=
  Script.perform .plain fun _ =>
    Tx.read fun s => (s.admins.get? admin).map AdminRow.passwordHash

/-- {lit}`change_password`. -/
def changePassword (p : Principal) (old new : String) : AuthScript Unit := do
  if p.keyId.isSome then Script.raise (.denied "Interactive session required")
  else
    match ← readHash p.id with
    | none => Script.raise (.denied "Current password incorrect")
    | some hash =>
        if !crypto.verifyPassword old hash then
          Script.raise (.denied "Current password incorrect")
        else
          commit (.changePassword p.id hash new) fun o => do
            note [.acted p.id hash]
            changePasswordTx crypto p.id new o

/-- {lit}`mfa_setup`. -/
def mfaSetup (p : Principal) (password : String) : AuthScript String := do
  if p.keyId.isSome then Script.raise (.denied "Interactive session required")
  else
    let (row, old) ← Script.perform .plain fun _ =>
      Tx.read fun s => (s.admins.get? p.id, (s.mfa.get? p.id).map MfaRow.enabled)
    match row with
    | none => Script.raise .typeError
    | some a =>
        if !crypto.verifyPassword password a.passwordHash then
          Script.raise (.denied "Password incorrect")
        else if old = some true then
          Script.raise (.policy "Disable existing TOTP before replacing its secret")
        else
          commit .plain fun o => do
            let encrypted := crypto.encrypt o.salt o.secret
            Tx.write fun s => { s with
              mfa := s.mfa.upsert p.id ⟨encrypted, encrypted, false, -1, []⟩
                fun m => { m with pending := encrypted } }
            return o.secret

/-- {lit}`mfa_enable`. -/
def mfaEnable (p : Principal) (code : String) : AuthScript (List String) :=
  if p.keyId.isSome then Script.raise (.denied "Interactive session required")
  else
    commit .plain fun o => do
      let row ← Tx.read fun s => (s.mfa.get? p.id).filter fun m => m.pending ≠ "" && !m.enabled
      let r ← Tx.demand row (.policy "No pending TOTP enrollment")
      let secret ← Tx.demand (crypto.decrypt r.pending) .invalidToken
      let matched ← Tx.ofExcept (matchStep crypto secret code (fun _ => true) (steps o.now))
      let step ← Tx.demand matched (.denied "Invalid enrollment code")
      writeMfa p.id ⟨r.pending, "", true, step, o.codes.map crypto.digest⟩
      dropSessions p.id
      note [.changed p.id]
      return o.codes

/-- The transaction of {lit}`mfa_disable`. -/
def mfaDisableTx (admin code : String) (o : AuthInput) : AuthTx Unit := do
  let row ← Tx.read fun s => (s.mfa.get? admin).filter fun m => m.enabled
  let r ← Tx.demand row (.policy "TOTP is not enabled")
  let _ ← Tx.ofExcept (verifyMfa crypto o.now r code)
  Tx.write fun s => { s with mfa := s.mfa.erase admin }
  dropSessions admin
  note [.changed admin]

/-- {lit}`mfa_disable`. -/
def mfaDisable (p : Principal) (password code : String) : AuthScript Unit := do
  if p.keyId.isSome then Script.raise (.denied "Interactive session required")
  else
    match ← readHash p.id with
    | none => Script.raise .typeError
    | some hash =>
        if !crypto.verifyPassword password hash then Script.raise (.denied "Password incorrect")
        else
          commit (.mfaDisable p.id hash code) fun o => do
            note [.acted p.id hash]
            mfaDisableTx crypto p.id code o

/-- A public id of a session. -/
def publicIdRe (value : String) : Bool :=
  value.length = 24 &&
    value.toList.all fun c => ('0' ≤ c && c ≤ '9') || ('a' ≤ c && c ≤ 'f')

/-- {lit}`revoke_session`: whether it was the session of the caller. -/
def revokeSession (p : Principal) (publicId : String) : AuthScript Bool :=
  match p.keyId, p.sessionId with
  | none, some sessionId =>
      if !publicIdRe publicId then Script.raise (.policy "Invalid session ID")
      else
        commit .plain fun _ => do
          let row ← Tx.read fun s =>
            s.sessions.rows.find? fun r => r.2.publicId = publicId && r.2.adminId = p.id
          let r ← Tx.demand row (.policy "Session not found")
          Tx.write fun s => { s with sessions := s.sessions.erase r.1 }
          return decide (r.1 = sessionId)
  | _, _ => Script.raise (.denied "Interactive session required")

/-- {lit}`revoke_other_sessions`: how many sessions it has revoked. -/
def revokeOtherSessions (p : Principal) : AuthScript ℕ :=
  match p.keyId, p.sessionId with
  | none, some sessionId =>
      commit .plain fun _ => do
        let before ← Tx.read fun s => s.sessions.rows.length
        Tx.write fun s => { s with
          sessions := s.sessions.filterRows fun d r => r.adminId ≠ p.id || d = sessionId }
        let after ← Tx.read fun s => s.sessions.rows.length
        return before - after
  | _, _ => Script.raise (.denied "Interactive session required")

/-! ## What the reads and the second factor do -/

section Specs

variable {crypto}

/-- An accepted principal is an enabled administrator, and an accepted cookie belongs to a
stored session. -/
theorem currentPrincipal_spec {now : ℚ} {cookie authorization : String} {s : AuthStore}
    {p : Principal} (h : currentPrincipal crypto now cookie authorization s = .ok p) :
    (∃ a, s.admins.get? p.id = some a ∧ a.disabled = false) ∧
      (p.keyId = none → ∃ r, s.sessions.get? (crypto.digest cookie) = some r ∧ r.adminId = p.id) := by
  unfold currentPrincipal at h
  by_cases hkey : authorization ≠ ""
  · rw [if_pos hkey] at h
    unfold keyPrincipal at h
    split at h
    · cases h
    dsimp only at h
    split at h
    · cases h
    split at h
    · cases h
    rename_i k hk _ a ha
    by_cases hdisabled : a.disabled = true
    · rw [if_pos hdisabled] at h
      cases h
    · rw [if_neg hdisabled] at h
      cases h
      exact ⟨⟨a, ha, by simpa using hdisabled⟩, fun hnone => by cases hnone⟩
  · rw [if_neg hkey] at h
    unfold sessionPrincipal at h
    split at h
    · cases h
    split at h
    · cases h
    rename_i r hr
    split at h
    · cases h
    rename_i a ha
    by_cases hdisabled : a.disabled = true
    · rw [if_pos hdisabled] at h
      cases h
    · rw [if_neg hdisabled] at h
      cases h
      refine ⟨⟨a, ha, by simpa using hdisabled⟩, fun _ => ⟨r, ?_, rfl⟩⟩
      exact (Option.filter_eq_some_iff.mp hr).1

end Specs

/-! ## Calls -/

/-- A call of a method, by any caller. -/
inductive AuthCall where
  | login (username password otp source : String) (sessionSeconds : ℤ) (userAgent : String)
  | current (cookie authorization : String)
  | adminEdit (actorRole : Option Role) (username : String) (disabled : Option Bool)
      (password : Option String) (values : Option Permissions)
  | changePassword (p : Principal) (old new : String)
  | mfaSetup (p : Principal) (password : String)
  | mfaEnable (p : Principal) (code : String)
  | mfaDisable (p : Principal) (password code : String)
  | revokeSession (p : Principal) (publicId : String)
  | revokeOtherSessions (p : Principal)

/-- What a method returns. -/
inductive AuthResult where
  | token (token : String) (p : Principal)
  | principal (p : Principal)
  | done
  | secret (secret : String)
  | codes (codes : List String)
  | revoked (current : Bool)
  | revokedOthers (count : ℕ)
deriving DecidableEq, Repr

/-- The script of a call. -/
def authScript : AuthCall → AuthScript AuthResult
  | .login username password otp source seconds agent => do
      let (token, p) ← login crypto username password otp source seconds agent
      return .token token p
  | .current cookie authorization => do
      return .principal (← current crypto cookie authorization)
  | .adminEdit actorRole username disabled password values => do
      adminEdit crypto actorRole username disabled password values
      return .done
  | .changePassword p old new => do
      changePassword crypto p old new
      return .done
  | .mfaSetup p password => do return .secret (← mfaSetup crypto p password)
  | .mfaEnable p code => do return .codes (← mfaEnable crypto p code)
  | .mfaDisable p password code => do
      mfaDisable crypto p password code
      return .done
  | .revokeSession p publicId => do return .revoked (← revokeSession p publicId)
  | .revokeOtherSessions p => do return .revokedOthers (← revokeOtherSessions p)

/-- Robot keys come and go. -/
def newKeys (keys : Table String RobotKey) (s : AuthStore) : AuthStore :=
  { s with keys := keys }

end Access
end DarkXray
