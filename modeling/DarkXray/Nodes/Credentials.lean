import Mathlib.Data.Nat.Notation
import DarkXray.Library.Tables
import DarkXray.Library.Threads

/-!
# Credential handoff

The Hub replaces the token of a Node without a moment at which it holds none that the
Node accepts: a journal row keeps the old and the new token, both encrypted, until the
new one is verified.  The Hub's calls are scripts of database transactions and of
exchanges with the Agent; requests may be lost, delayed, served more than once and in
any order.

The locks that order the calls within one process of the Hub are left out: nothing
here depends on them.

Main results:

- Theorem {lit}`serve_token`: only a rotation that holds the current token changes it.
- Theorem {lit}`latestOf_completed`: when the last handoff of a Node is completed, all are.
-/

namespace DarkXray
namespace Nodes

open Library

/-! ## The Agent -/

/-- What the handoff reads of the Agent's health. -/
structure Health where
  agentId : String
  installationId : String
  credentialRotation : Option ℤ
  writesEnabled : Bool
deriving DecidableEq, Repr

/-- An authenticated request: a health probe, or a rotation to another token.
{lit}`attempt` is the handoff that it is sent for; it is not part of the message. -/
structure TokenRequest where
  attempt : String
  auth : String
  rotateTo : Option String
deriving DecidableEq, Repr

/-- What the Agent answers. -/
inductive TokenReply where
  | failed (status : ℕ)
  | health (h : Health)
  | rotated
deriving DecidableEq, Repr

/-- How the Agent's environment treats a request. -/
inductive Service where
  /-- It is refused or fails before it has an effect. -/
  | refused (status : ℕ)
  /-- It is carried out; {lit}`fsync` says that the directory could be synced. -/
  | carried (h : Health) (fsync : Bool)
deriving DecidableEq, Repr

/-- The tokens that {lit}`AgentToken.rotate` takes. -/
def agentTokenRe (value : String) : Bool :=
  "dkn_".toList.isPrefixOf value.toList && decide (40 ≤ value.length ∧ value.length ≤ 256) &&
    value.toList.all fun c => c.val < 128

/-- The Agent serves a request: {lit}`require`, then {lit}`health` or {lit}`rotate`.
When the directory cannot be synced the token is replaced, and no success reported. -/
def serveToken (token : String) (q : TokenRequest) : Service → TokenReply × String
  | .refused status => (.failed status, token)
  | .carried h fsync =>
      if q.auth ≠ token then (.failed 401, token)
      else match q.rotateTo with
        | none => (.health h, token)
        | some value =>
            if agentTokenRe value then (if fsync then .rotated else .failed 500, value)
            else (.failed 422, token)

/-! ## The Hub -/

/-- What identifies a pinned installation. -/
structure Installation where
  bindingId : String
  agentId : String
  installationId : String
  origin : String
deriving DecidableEq, Repr

/-- Phases of a handoff. -/
inductive HandoffPhase where
  | pending
  | rotating
  | completed
deriving DecidableEq, Repr

/-- A row of {lit}`remote_node_credentials`; the key is {lit}`attempt_id`. -/
structure Handoff where
  binding : Installation
  originalEnc : String
  candidateEnc : String
  candidateHash : String
  originalHash : String
  publishedHash : String
  operationRevision : ℕ
  phase : HandoffPhase
  lastError : String
  createdAt : ℕ
  completedAt : ℕ
deriving DecidableEq, Repr

/-- The registration of the Node and the journal, the Agent's token, and all requests
that were ever sent with all replies to them. -/
structure Site where
  binding : Installation
  tokenEnc : String
  handoffs : Table String Handoff
  agentToken : String
  requests : List TokenRequest
  replies : List (ℕ × TokenReply)

/-- The exceptions of a handoff. -/
inductive HandoffError where
  | policyError (message : String)
  /-- {lit}`CredentialRejected`. -/
  | rejected (code : String)
  /-- {lit}`NodeHTTPError`. -/
  | http (status : ℕ)
  | contact
  | integrityError
deriving DecidableEq, Repr

/-- The inputs of an action: the clock, a new random id, the randomness of the cipher,
whether another workflow is under way, the reply that is delivered. -/
structure Chance where
  now : ℕ
  fresh : String
  nonce : ℕ
  conflict : Bool
  delivered : Option ℕ
deriving DecidableEq, Repr

/-- Authenticated encryption and a digest. -/
structure Cipher where
  encrypt : ℕ → String → String
  decrypt : String → Option String
  fingerprint : String → String
  decrypt_encrypt : ∀ n text, decrypt (encrypt n text) = some text

variable (cipher : Cipher)

/-- {lit}`_open`. -/
def Cipher.open (value : String) : Except HandoffError String :=
  (cipher.decrypt value).elim (.error (.rejected "credential_key_unavailable")) .ok

/-- Scripts of the Hub; no action needs a name. -/
abbrev HubScript (β : Type) : Type 1 :=
  Script Chance Unit Site HandoffError β

/-- {lit}`_no_conflict`. -/
def noConflict (o : Chance) : Tx Site HandoffError Unit :=
  Tx.require (o.conflict = false) (.rejected "credential_conflicting_workflow")

/-- The order of {lit}`_row`: handoffs under way first, then the newest. -/
def Handoff.before (r r' : String × Handoff) : Prop :=
  if (r.2.phase = .completed) = (r'.2.phase = .completed) then
    if r.2.createdAt = r'.2.createdAt then r.1 < r'.1 else r.2.createdAt < r'.2.createdAt
  else r.2.phase = .completed

instance (r r' : String × Handoff) : Decidable (Handoff.before r r') := by
  unfold Handoff.before
  infer_instance

/-- The last of some rows. -/
def latestOf : List (String × Handoff) → Option (String × Handoff)
  | [] => none
  | r :: rows =>
      match latestOf rows with
      | none => some r
      | some r' => if Handoff.before r r' then some r' else some r

/-- {lit}`_row` without an attempt. -/
def Site.latest (s : Site) : Option (String × Handoff) :=
  latestOf s.handoffs.rows

/-- The tokens that {lit}`begin` takes. -/
def candidateRe (value : String) : Bool :=
  let rest := value.toList.drop 4
  "dkn_".toList.isPrefixOf value.toList &&
    decide (36 ≤ rest.length ∧ rest.length ≤ 252) &&
      rest.all fun c => c.isAlphanum || c = '_' || c = '-'

/-- The row that {lit}`begin` inserts. -/
def newHandoff (s : Site) (candidate current : String) (o : Chance) : Handoff where
  binding := s.binding
  originalEnc := s.tokenEnc
  candidateEnc := cipher.encrypt o.nonce candidate
  candidateHash := cipher.fingerprint candidate
  originalHash := cipher.fingerprint current
  publishedHash := ""
  operationRevision := 0
  phase := .pending
  lastError := ""
  createdAt := o.now
  completedAt := 0

/-- {lit}`begin` when no handoff is under way. -/
def beginNew (existing : Option (String × Handoff)) (candidate : String) (o : Chance) :
    Tx Site HandoffError Unit := do
  let s ← Tx.read id
  let current ← Tx.ofExcept (cipher.open s.tokenEnc)
  let hash := cipher.fingerprint candidate
  if current = candidate then
    Tx.require (existing.any (fun r => r.2.binding.bindingId = s.binding.bindingId &&
      r.2.candidateHash = hash) = true) (.rejected "credential_already_current")
  else do
    Tx.require (s.handoffs.rows.all (fun r =>
      !(r.2.binding.bindingId = s.binding.bindingId &&
        (r.2.candidateHash = hash || r.2.originalHash = hash))) = true)
      (.rejected "credential_reuse_refused")
    Tx.require (s.handoffs.get? o.fresh = none) .integrityError
    Tx.write fun s => { s with
      handoffs := s.handoffs.insert o.fresh (newHandoff cipher s candidate current o) }

/-- {lit}`begin` when the last handoff of the Node is under way. -/
def beginAgain (r : Handoff) (candidate bindingId : String) : Tx Site HandoffError Unit := do
  Tx.require (r.binding.bindingId = bindingId) (.rejected "credential_resume_saved_operation")
  let saved ← Tx.ofExcept (cipher.open r.candidateEnc)
  Tx.require (saved = candidate) (.rejected "credential_resume_saved_operation")

/-- The transaction of {lit}`begin`. -/
def beginTx (candidate bindingId : String) (o : Chance) : Tx Site HandoffError Unit :=
  Tx.transaction do
    let s ← Tx.read id
    Tx.require (s.binding.installationId ≠ "" ∧ s.binding.bindingId = bindingId)
      (.rejected "credential_pinned_installation_required")
    noConflict o
    match s.latest with
    | some (attempt, r) =>
        if r.phase ≠ .completed then beginAgain cipher r candidate bindingId
        else beginNew cipher (some (attempt, r)) candidate o
    | none => beginNew cipher none candidate o

/-- {lit}`begin`; its report is left out. -/
def begin (candidate bindingId : String) : HubScript Unit :=
  if candidateRe candidate then Script.perform () (beginTx cipher candidate bindingId)
  else .raise (.policyError "Invalid replacement DARK node token")

/-- {lit}`_assert`. -/
def assertRow (attempt : String) (row : Handoff) (o : Chance) : Tx Site HandoffError Unit := do
  let s ← Tx.read id
  Tx.require ((s.handoffs.get? attempt).any (fun latest =>
      latest.phase ≠ .completed && latest.operationRevision = row.operationRevision &&
        latest.binding.bindingId = row.binding.bindingId &&
        latest.binding.installationId = row.binding.installationId &&
        latest.originalEnc = row.originalEnc && latest.candidateEnc = row.candidateEnc &&
        latest.binding.origin = row.binding.origin) = true ∧
      s.binding = row.binding ∧ s.tokenEnc = row.originalEnc)
    (.rejected "credential_operation_changed")
  noConflict o

/-- Change a row of the journal. -/
def Site.updateHandoff (s : Site) (attempt : String) (f : Handoff → Handoff) : Site :=
  { s with handoffs := s.handoffs.update attempt f }

/-- The first transaction of {lit}`retry`; {lit}`none` if the handoff is completed. -/
def retryTx (attempt : String) (o : Chance) : Tx Site HandoffError (Option Handoff) :=
  Tx.transaction do
    let row? ← Tx.read fun s => s.handoffs.get? attempt
    let row ← Tx.demand row? (.policyError "Credential handoff not found")
    if row.phase = .completed then return none
    else do
      Tx.require (row.operationRevision < 9223372036854775806)
        (.policyError "Credential handoff sequence exhausted")
      assertRow attempt row o
      Tx.write fun s => s.updateHandoff attempt fun r =>
        { r with operationRevision := row.operationRevision + 1 }
      return some { row with operationRevision := row.operationRevision + 1 }

/-- Send a request; the result is its number. -/
def sendRequest (q : TokenRequest) (_ : Chance) : Tx Site HandoffError ℕ := do
  Tx.write fun s => { s with requests := s.requests ++ [q] }
  Tx.read fun s => s.requests.length - 1

/-- Wait for a reply to a request. -/
def awaitReply (i : ℕ) (o : Chance) : Tx Site HandoffError TokenReply := do
  let replies ← Tx.read Site.replies
  match o.delivered.bind (replies[·]?) with
  | some (j, reply) =>
      if j = i then
        match reply with
        | .failed status => Tx.raise (.http status)
        | reply => pure reply
      else Tx.raise .contact
  | none => Tx.raise .contact

/-- {lit}`_exchange`. -/
def exchange (attempt : String) (row : Handoff) (credential : String)
    (rotateTo : Option String) : HubScript TokenReply := do
  Script.perform () (assertRow attempt row)
  let i ← Script.perform () (sendRequest ⟨attempt, credential, rotateTo⟩)
  let reply ← Script.perform () (awaitReply i)
  Script.perform () (assertRow attempt row)
  return reply

/-- {lit}`_health`. -/
def checkHealth (row : Handoff) (reply : TokenReply) (forMutation : Bool) :
    Except HandoffError Unit :=
  match reply with
  | .health h => do
      ensure (h.agentId = row.binding.agentId ∧ h.installationId = row.binding.installationId)
        (.rejected "credential_installation_changed")
      ensure (h.credentialRotation = some 1 ∧ (forMutation = true → h.writesEnabled = true))
        (.rejected "credential_rotation_unsupported_or_readonly")
  | _ => .error (.policyError "Agent lacks a valid installation identity v1")

/-- Probe the Agent with a credential. -/
def probe (attempt : String) (row : Handoff) (credential : String) (forMutation : Bool) :
    HubScript Unit := do
  let reply ← exchange attempt row credential none
  Script.ofExcept (checkHealth row reply forMutation)

/-- The transaction that announces the rotation. -/
def rotatingTx (attempt : String) (row : Handoff) (o : Chance) : Tx Site HandoffError Unit :=
  Tx.transaction do
    assertRow attempt row o
    Tx.write fun s => s.updateHandoff attempt fun r => { r with phase := .rotating }

/-- The rotation, with the original credential. -/
def rotate (attempt : String) (row : Handoff) (candidate : String) : HubScript Unit := do
  let original ← Script.ofExcept (cipher.open row.originalEnc)
  probe attempt row original true
  Script.perform () (rotatingTx attempt row)
  let ack ← exchange attempt row original (some candidate)
  Script.ofExcept (ensure (ack = .rotated) (.rejected "credential_rotation_unacknowledged"))
  probe attempt row candidate false

/-- The row of a handoff that is completed. -/
def Handoff.complete (r row : Handoff) (now : ℕ) : Handoff :=
  { r with
    phase := .completed
    originalEnc := ""
    candidateEnc := ""
    publishedHash := cipher.fingerprint row.candidateEnc
    lastError := ""
    completedAt := now }

/-- {lit}`_finish`; the trigger refuses the new token while a handoff is under way. -/
def finishTx (attempt : String) (row : Handoff) (o : Chance) : Tx Site HandoffError Unit :=
  Tx.transaction do
    assertRow attempt row o
    Tx.write fun s => s.updateHandoff attempt fun r => r.complete cipher row o.now
    let s ← Tx.read id
    Tx.require (s.tokenEnc = row.originalEnc) (.rejected "credential_operation_changed")
    Tx.require (s.handoffs.rows.all (fun r => r.2.phase = .completed) = true ∨
      row.candidateEnc = s.tokenEnc) .integrityError
    Tx.write fun s => { s with tokenEnc := row.candidateEnc }

/-- The code of an exception that {lit}`retry` notes. -/
def HandoffError.code : HandoffError → String
  | .rejected code => code
  | _ => "credential_contact_or_verification_failed"

/-- The exception handler of {lit}`retry`. -/
def noteError (attempt : String) (row : Handoff) (e : HandoffError) (_ : Chance) :
    Tx Site HandoffError Unit :=
  Tx.transaction <| Tx.write fun s => s.updateHandoff attempt fun r =>
    if r.operationRevision = row.operationRevision ∧ r.phase ≠ .completed then
      { r with lastError := e.code }
    else r

/-- The body of {lit}`retry` for a handoff that is not completed: only a 401 to the
candidate leads to the original credential. -/
def verify (attempt : String) (row : Handoff) : HubScript Unit := do
  let candidate ← Script.ofExcept (cipher.open row.candidateEnc)
  (probe attempt row candidate false).handle fun e =>
    if e = .http 401 then rotate cipher attempt row candidate else .raise e
  Script.perform () (finishTx cipher attempt row)

/-- {lit}`retry`; its report is left out. -/
def retry (attempt : String) : HubScript Unit := do
  let row? ← Script.perform () (retryTx attempt)
  match row? with
  | none => pure ()
  | some row =>
      (verify cipher attempt row).handle fun e => Script.perform () (noteError attempt row e)

/-- The calls of the handoff. -/
inductive HandoffCall where
  | begin (candidate bindingId : String)
  | retry (attempt : String)
deriving DecidableEq, Repr

/-- The script of a call. -/
def HandoffCall.script : HandoffCall → HubScript Unit
  | .begin candidate bindingId => Nodes.begin cipher candidate bindingId
  | .retry attempt => Nodes.retry cipher attempt

/-- The Agent serves a request that was sent; it may do so again. -/
structure Serving where
  request : ℕ
  service : Service
deriving DecidableEq, Repr

/-- The Agent serves a request. -/
def Site.serve (e : Serving) (s : Site) : Site :=
  match s.requests[e.request]? with
  | none => s
  | some q =>
      let result := serveToken s.agentToken q e.service
      { s with
        agentToken := result.2
        replies := s.replies ++ [(e.request, result.1)] }

/-! ## What the parts do -/

variable {cipher : Cipher}

/-- Only a rotation that holds the current token changes it. -/
theorem serve_token {token : String} {q : TokenRequest} {o : Service}
    (h : (serveToken token q o).2 ≠ token) :
    q.auth = token ∧ q.rotateTo = some (serveToken token q o).2 := by
  cases o with
  | refused status => exact absurd rfl h
  | carried health fsync =>
      simp only [serveToken] at h ⊢
      split at h
      · exact absurd rfl h
      · rename_i hauth
        rw [ne_eq, not_not] at hauth
        refine ⟨hauth, ?_⟩
        rw [if_neg (not_not.mpr hauth)]
        cases hvalue : q.rotateTo with
        | none => simp [hvalue] at h
        | some value =>
            simp only [hvalue] at h ⊢
            split at h
            · rename_i hvalid
              rw [if_pos hvalid]
            · exact absurd rfl h

/-- A success is reported to the holder of the token that is current before or after. -/
theorem serve_reply (token : String) (q : TokenRequest) (o : Service) :
    (∃ status, (serveToken token q o).1 = .failed status) ∨
      q.auth = token ∧ (q.rotateTo = none → (serveToken token q o).2 = token) := by
  cases o with
  | refused status => exact .inl ⟨status, rfl⟩
  | carried health fsync =>
      simp only [serveToken]
      split
      · exact .inl ⟨401, rfl⟩
      · rename_i hauth
        rw [ne_eq, not_not] at hauth
        refine .inr ⟨hauth, fun hnone => ?_⟩
        rw [hnone]

/-- A Node with handoffs has a last one. -/
theorem latestOf_eq_none {rows : List (String × Handoff)} (h : latestOf rows = none) :
    rows = [] := by
  cases rows with
  | nil => rfl
  | cons r rows =>
      rw [latestOf] at h
      split at h
      · cases h
      · split at h <;> cases h

/-- When the last handoff is completed, all are. -/
theorem latestOf_completed {rows : List (String × Handoff)} {r : String × Handoff}
    (h : latestOf rows = some r) (hr : r.2.phase = .completed) :
    ∀ r' ∈ rows, r'.2.phase = .completed := by
  induction rows generalizing r with
  | nil => cases h
  | cons first rows ih =>
      rw [latestOf] at h
      split at h
      · rename_i hnone
        cases h
        intro r' hr'
        rw [latestOf_eq_none hnone, List.mem_singleton] at hr'
        rwa [hr']
      · rename_i last hlast
        split at h <;> rename_i hbefore
        · cases h
          have hrows := ih hlast hr
          intro r' hr'
          rcases List.mem_cons.mp hr' with rfl | hmem
          · by_contra hfirst
            simp [Handoff.before, hr, hfirst] at hbefore
          · exact hrows r' hmem
        · cases h
          have hlastCompleted : last.2.phase = .completed := by
            by_contra hother
            exact hbefore (by simp [Handoff.before, hr, hother])
          intro r' hr'
          rcases List.mem_cons.mp hr' with rfl | hmem
          · exact hr
          · exact ih hlast hlastCompleted r' hmem

end Nodes
end DarkXray
