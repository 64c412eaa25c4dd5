import Mathlib.Data.Nat.Notation
import DarkXray.Library.Tables
import DarkXray.Library.Threads
import DarkXray.Policy.Basics
import DarkXray.Nodes.Credentials

/-!
# First enrollment of a Node

A fresh Agent is enrolled with a pair code.  The Hub journals the bootstrap token of the
code and a candidate token of its own, pins the installation, has the Agent rotate to the
candidate, verifies the candidate, and only then registers the Node, in one transaction with
a receipt.  An enrollment can be cancelled: locally as long as no rotation may have been
sent, and after that by rotating the Agent to a disposal token that the Hub then forgets.

The calls are scripts of database transactions and of exchanges with Agents, as in the
handoff of the credential of a registered Node.  While an enrollment is pending, triggers
reserve its Node id, its endpoint and its installation against the other ways to register a
Node; these are part of the model.

The locks that order the calls for one attempt within one process of the Hub are left out,
and so are the texts of the pair code and the reports on saved operations.

Main definitions:

- {lit}`begin`, {lit}`retry` and {lit}`cancel`: the calls of the Hub.
- {lit}`serve`: what the Agent does with a request.
- {lit}`Surroundings`: what else happens to the tables of the Hub and to the Agents.
-/

namespace DarkXray
namespace Nodes
namespace Pairing

open Library Policy

/-! ## The Agent -/

/-- The exceptions of an enrollment. -/
inductive PairError where
  | policyError (message : String)
  /-- {lit}`PairingRejected`. -/
  | rejected (code : String)
  /-- {lit}`HTTPException`: the Node id or the origin is already registered. -/
  | conflict
  /-- {lit}`NodeHTTPError`. -/
  | http (status : ℕ)
  | contact
  | integrityError
deriving DecidableEq, Repr

/-- What the enrollment reads of the Agent's health. -/
structure Health where
  service : String
  agentOnly : Bool
  installationIdentity : Option ℤ
  nodeId : String
  installationId : String
  writesEnabled : Bool
  orderedControl : Option ℤ
  receiptPersisted : Option Bool
  coreState : String
  appliedRevision : Option ℤ
  inbounds : Option ℤ
  managedClients : Option ℤ
  replacementPrepare : Option ℤ
  coreError : String
  maintenanceError : String
  effectiveRunning : Option Bool
  manualStop : Option Bool
deriving DecidableEq, Repr

/-- What a request asks for. -/
inductive Order where
  | health
  | rotateToken (token : String)
  | idle
deriving DecidableEq, Repr

/-- An authenticated request to the Agent at {lit}`origin`.  {lit}`nodeId` and
{lit}`installationId` are the expected identity, once it is pinned; {lit}`attempt` is the
enrollment that the request is sent for, and is not part of the message. -/
structure Request where
  attempt : String
  origin : String
  auth : String
  order : Order
  nodeId : String
  installationId : String
deriving DecidableEq, Repr

/-- The document that the Agent answers. -/
inductive Body where
  | health (h : Health)
  | rotated
  | idle
deriving DecidableEq, Repr

/-- An answer with the identity in its headers. -/
inductive Reply where
  | failed (status : ℕ) (nodeId installationId : String)
  | answered (body : Body) (nodeId installationId : String)
deriving DecidableEq, Repr

/-- How the Agent's environment treats a request. -/
inductive Service where
  /-- It is refused or fails before it has an effect. -/
  | refused (status : ℕ) (nodeId installationId : String)
  /-- It is carried out; {lit}`fsync` says that the directory could be synced. -/
  | carried (h : Health) (fsync : Bool) (nodeId installationId : String)
deriving DecidableEq, Repr

/-- The Agent serves a request: {lit}`health`, {lit}`prepare_credential` or
{lit}`prepare_idle` after {lit}`require`. -/
def serve (token : String) (q : Request) : Service → Reply × String
  | .refused status nodeId installationId => (.failed status nodeId installationId, token)
  | .carried h fsync nodeId installationId =>
      if q.auth ≠ token then (.failed 401 nodeId installationId, token)
      else match q.order with
        | .health => (.answered (.health h) nodeId installationId, token)
        | .idle => (.answered .idle nodeId installationId, token)
        | .rotateToken value =>
            if agentTokenRe value then
              (if fsync then .answered .rotated nodeId installationId
                else .failed 500 nodeId installationId, value)
            else (.failed 422 nodeId installationId, token)

/-! ## The tables of the Hub -/

/-- Phases of a pending enrollment. -/
inductive Phase where
  | pending
  | rotating
deriving DecidableEq, Repr

/-- A row of {lit}`remote_node_pairings`; the key is {lit}`attempt_id`.  The resolution is
{lit}`cancelling` or empty. -/
structure Row where
  nodeId : String
  name : String
  origin : String
  installationId : String
  dataAddress : String
  priority : ℤ
  failoverEnabled : Bool
  bootstrapEnc : String
  candidateEnc : String
  operationRevision : ℕ
  phase : Phase
  cancelling : Bool
  disposalEnc : Option String
  lastError : String
  createdAt : ℕ
  updatedAt : ℕ
deriving DecidableEq, Repr

/-- A row of {lit}`remote_node_pair_history`; the key is {lit}`attempt_id`. -/
structure Receipt where
  nodeId : String
  bindingId : String
  installationId : String
  name : String
  origin : String
  createdAt : ℕ
  completedAt : ℕ
deriving DecidableEq, Repr

/-- How a cancellation ended. -/
inductive Outcome where
  | withdrawnBeforeRotation
  | discardedAfterRotation
deriving DecidableEq, Repr

/-- A row of {lit}`remote_node_pair_cancellations`; the key is {lit}`attempt_id`. -/
structure Cancellation where
  nodeId : String
  name : String
  origin : String
  installationId : String
  outcome : Outcome
  createdAt : ℕ
  completedAt : ℕ
deriving DecidableEq, Repr

/-- A row of {lit}`remote_nodes`; the key is {lit}`id`. -/
structure Node where
  name : String
  origin : String
  tokenEnc : String
  dataAddress : String
  priority : ℤ
  failoverEnabled : Bool
  enabled : Bool
deriving DecidableEq, Repr

/-- A row of {lit}`remote_node_installations`; the key is {lit}`binding_id`. -/
structure Binding where
  nodeId : String
  generation : ℕ
  agentId : String
  installationId : String
  retired : Bool
deriving DecidableEq, Repr

/-- The Agent at an endpoint; {lit}`changes` counts how often its token was set locally. -/
structure Agent where
  token : String
  changes : ℕ
deriving DecidableEq, Repr

/-- An answer, the request that it belongs to, and the changes of the Agent's token before. -/
structure Answer where
  request : ℕ
  changes : ℕ
  reply : Reply
deriving DecidableEq, Repr

/-- The tables of the Hub, the Agents by endpoint, all tokens that there have been, and all
requests that were ever sent with all answers.  {lit}`replacements` holds the target of each
replacement that is being prepared. -/
structure Site where
  pairings : Table String Row
  history : Table String Receipt
  cancellations : Table String Cancellation
  nodes : Table String Node
  installations : Table String Binding
  replacements : Table String (String × String)
  agents : Table String Agent
  tokens : List String
  requests : List Request
  answers : List Answer

/-- The inputs of an action: the clock, new random ids, a new random token, the randomness
of the cipher, the answer that is delivered. -/
structure Chance where
  now : ℕ
  attempt : String
  binding : String
  token : String
  nonce : ℕ
  delivered : Option ℕ
deriving DecidableEq, Repr

/-- {lit}`[0-9a-f]` 32 times. -/
def hex32 (value : String) : Bool :=
  value.length = 32 && value.toList.all fun c => c.isDigit || ('a' ≤ c && c ≤ 'f')

/-- What is random is new, and the id of an attempt is a {lit}`uuid4`. -/
def Chance.Fresh (o : Chance) (s : Site) : Prop :=
  o.token ∉ s.tokens ∧ s.pairings.get? o.attempt = none ∧ s.history.get? o.attempt = none ∧
    s.cancellations.get? o.attempt = none ∧ s.installations.get? o.binding = none ∧
      hex32 o.attempt = true

instance Chance.decidableFresh (o : Chance) (s : Site) : Decidable (o.Fresh s) := by
  unfold Chance.Fresh
  infer_instance

/-- Scripts of the Hub; no action needs a name. -/
abbrev HubScript (β : Type) : Type 1 :=
  Script Chance Unit Site PairError β

/-- Procedures on the tables of the Hub. -/
abbrev HubTx (β : Type) : Type :=
  Tx Site PairError β

/-- A parsed pair code. -/
structure PairCode where
  nodeId : String
  name : String
  origin : String
  token : String
  dataAddress : String
  priority : ℤ
  failoverEnabled : Bool
deriving DecidableEq, Repr

variable (cipher : Cipher)

/-- {lit}`_open`. -/
def openSealed (sealed : String) : Except PairError String :=
  (cipher.decrypt sealed).elim (.error (.rejected "pairing_credential_unavailable")) .ok

/-! ## Reservations -/

/-- {lit}`_available`. -/
def available (nodeId origin installationId : String) : HubTx Unit := do
  let s ← Tx.read id
  Tx.require (s.nodes.rows.all (fun n => !(n.1 = nodeId || n.2.origin = origin)) = true)
    (.rejected "pairing_target_already_registered")
  Tx.require (installationId = "" ∨
      s.installations.rows.all (fun i => i.2.installationId ≠ installationId) = true)
    (.rejected "pairing_installation_already_known")
  Tx.require (s.replacements.rows.all (fun t =>
      !(t.2.1 = origin || (installationId ≠ "" && t.2.2 = installationId))) = true)
    (.rejected "pairing_target_reserved_for_replacement")

/-- The triggers {lit}`pairing_reserves_remote_nodes`. -/
def Site.reservesNode (s : Site) (id origin : String) : Bool :=
  s.pairings.rows.any fun p => p.2.nodeId = id || p.2.origin = origin

/-- The triggers {lit}`pairing_reserves_remote_node_installations`. -/
def Site.reservesInstallation (s : Site) (installationId : String) : Bool :=
  installationId ≠ "" && s.pairings.rows.any fun p => p.2.installationId = installationId

/-- The triggers {lit}`pairing_reserves_remote_node_replacements`. -/
def Site.reservesTarget (s : Site) (origin installationId : String) : Bool :=
  s.pairings.rows.any fun p =>
    p.2.origin = origin || (installationId ≠ "" && p.2.installationId = installationId)

/-- The active installation of a Node. -/
def Site.activeBinding (s : Site) (id : String) : Option String :=
  (s.installations.rows.find? fun i => i.2.nodeId = id && !i.2.retired).map Prod.fst

/-- The generation of the next installation of a Node. -/
def Site.nextGeneration (s : Site) (id : String) : ℕ :=
  (s.installations.rows.foldl
    (fun top i => if i.2.nodeId = id then max top i.2.generation else top) 0) + 1

/-- Insert an installation; at most one of a Node is active. -/
def insertBinding (binding : String) (i : Binding) : HubTx Unit := do
  let s ← Tx.read id
  Tx.require (s.reservesInstallation i.installationId = false) .integrityError
  Tx.require (s.installations.get? binding = none) .integrityError
  Tx.require (s.installations.rows.all (fun j =>
    !(j.2.nodeId = i.nodeId && !j.2.retired) &&
      (i.installationId = "" || j.2.installationId ≠ i.installationId)) = true) .integrityError
  Tx.write fun s => { s with installations := s.installations.insert binding i }

/-- Insert a Node; the trigger {lit}`node_installation_on_insert` adds its installation. -/
def insertNode (nodeId : String) (node : Node) (binding : String) : HubTx Unit := do
  let s ← Tx.read id
  Tx.require (s.reservesNode nodeId node.origin = false) .integrityError
  Tx.require (s.nodes.rows.all (fun n => !(n.1 = nodeId || n.2.origin = node.origin)) = true)
    .integrityError
  Tx.write fun s => { s with nodes := s.nodes.insert nodeId node }
  insertBinding binding ⟨nodeId, s.nextGeneration nodeId, nodeId, "", false⟩

/-- Pin an installation. -/
def updateInstallation (binding installationId : String) : HubTx Unit := do
  let s ← Tx.read id
  Tx.require (s.reservesInstallation installationId = false) .integrityError
  Tx.require (installationId = "" ∨ s.installations.rows.all (fun i =>
    i.1 = binding || i.2.installationId ≠ installationId) = true) .integrityError
  Tx.write fun s => { s with
    installations := s.installations.update binding fun i =>
      { i with installationId := installationId } }

/-! ## Enrollment -/

/-- Change a pending enrollment. -/
def Site.updatePairing (s : Site) (attempt : String) (f : Row → Row) : Site :=
  { s with pairings := s.pairings.update attempt f }

/-- The row that {lit}`begin` inserts. -/
def newRow (code : PairCode) (o : Chance) : Row where
  nodeId := code.nodeId
  name := code.name
  origin := code.origin
  installationId := ""
  dataAddress := code.dataAddress
  priority := code.priority
  failoverEnabled := code.failoverEnabled
  bootstrapEnc := cipher.encrypt o.nonce code.token
  candidateEnc := cipher.encrypt (o.nonce + 1) o.token
  operationRevision := 0
  phase := .pending
  cancelling := false
  disposalEnc := none
  lastError := ""
  createdAt := o.now
  updatedAt := o.now

/-- {lit}`begin` for an id and an endpoint that no pending enrollment has. -/
def beginNew (code : PairCode) (o : Chance) : HubTx String := do
  let s ← Tx.read id
  Tx.require (s.pairings.rows.length < 100)
    (.policyError "Resolve pending Node pairings before adding more")
  available code.nodeId code.origin ""
  Tx.require (s.pairings.get? o.attempt = none) .integrityError
  Tx.write fun s => { s with
    pairings := s.pairings.insert o.attempt (newRow cipher code o)
    tokens := code.token :: o.token :: s.tokens }
  return o.attempt

/-- {lit}`begin` when a pending enrollment has the id or the endpoint. -/
def beginAgain (code : PairCode) (attempt : String) (prior : Row) : HubTx String := do
  Tx.require (prior.nodeId = code.nodeId ∧ prior.name = code.name ∧ prior.origin = code.origin ∧
      prior.dataAddress = code.dataAddress ∧ prior.priority = code.priority ∧
      prior.failoverEnabled = code.failoverEnabled)
    (.policyError
      "A different Node pairing owns this identity or endpoint; resume the saved operation")
  let saved ← Tx.ofExcept (openSealed cipher prior.bootstrapEnc)
  Tx.require (saved = code.token)
    (.policyError
      "A different Node pairing owns this identity or endpoint; resume the saved operation")
  return attempt

/-- The transaction of {lit}`begin`. -/
def beginTx (code : PairCode) (o : Chance) : HubTx String :=
  Tx.transaction do
    let s ← Tx.read id
    Tx.require (s.nodes.rows.all (fun n => !(n.1 = code.nodeId || n.2.origin = code.origin)) = true)
      .conflict
    match s.pairings.rows.find? fun p => p.2.nodeId = code.nodeId || p.2.origin = code.origin with
    | some (attempt, prior) => beginAgain cipher code attempt prior
    | none => beginNew cipher code o

/-- {lit}`begin`. -/
def begin (code : PairCode) : HubScript String :=
  Script.perform () (beginTx cipher code)

/-- {lit}`_pending`. -/
def pending (attempt : String) : HubTx (Option Row) := do
  Tx.require (hex32 attempt = true) (.policyError "Invalid Node pairing attempt")
  Tx.read fun s => s.pairings.get? attempt

/-- {lit}`_assert`. -/
def assertRow (attempt : String) (row : Row) : HubTx Unit := do
  let latest? ← pending attempt
  Tx.require (latest?.any (fun latest => latest.operationRevision = row.operationRevision) = true)
    (.rejected "pairing_operation_superseded")
  Tx.require (latest?.any (fun latest =>
      latest.nodeId = row.nodeId && latest.origin = row.origin &&
        latest.installationId = row.installationId && latest.bootstrapEnc = row.bootstrapEnc &&
        latest.candidateEnc = row.candidateEnc && latest.cancelling = row.cancelling &&
        latest.disposalEnc = row.disposalEnc) = true)
    (.rejected "pairing_operation_changed")
  available row.nodeId row.origin row.installationId

/-- Send a request; the result is its number. -/
def sendRequest (q : Request) (_ : Chance) : HubTx ℕ := do
  Tx.write fun s => { s with requests := s.requests ++ [q] }
  Tx.read fun s => s.requests.length - 1

/-- {lit}`node_https_request` receives: a 401 counts before the identity of the Agent is
looked at. -/
def receive (q : Request) : Reply → Except PairError Body
  | .failed status nodeId installationId =>
      if status ≠ 401 ∧ q.installationId ≠ "" ∧
          ¬(nodeId = q.nodeId ∧ installationId = q.installationId) then
        .error (.policyError "Node response installation identity mismatch")
      else .error (.http status)
  | .answered body nodeId installationId =>
      if q.installationId ≠ "" ∧ ¬(nodeId = q.nodeId ∧ installationId = q.installationId) then
        .error (.policyError "Node response installation identity mismatch")
      else .ok body

/-- Wait for the answer to a request. -/
def awaitAnswer (q : Request) (i : ℕ) (o : Chance) : HubTx Body := do
  let answers ← Tx.read Site.answers
  match o.delivered.bind (answers[·]?) with
  | some answer =>
      if answer.request = i then Tx.ofExcept (receive q answer.reply) else Tx.raise .contact
  | none => Tx.raise .contact

/-- {lit}`_exchange`. -/
def exchange (attempt : String) (row : Row) (credential : String) (order : Order) :
    HubScript Body := do
  let q : Request := ⟨attempt, row.origin, credential, order, row.nodeId, row.installationId⟩
  Script.perform () fun _ => assertRow attempt row
  let i ← Script.perform () (sendRequest q)
  let body ← Script.perform () (awaitAnswer q i)
  Script.perform () fun _ => assertRow attempt row
  return body

/-- {lit}`descriptor`. -/
def descriptor (h : Health) : Except PairError (String × String) := do
  ensure (h.service = "DARK XRAY NODE" ∧ h.agentOnly = true ∧ h.installationIdentity = some 1 ∧
      nameRe h.nodeId = true ∧ hex32 h.installationId = true)
    (.policyError "Agent lacks a valid installation identity v1")
  return (h.nodeId, h.installationId)

/-- {lit}`validate_fresh` with {lit}`allow_running`. -/
def validateFresh (h : Health) : Except PairError (String × String) := do
  let identity ← descriptor h
  ensure (h.writesEnabled = true ∧ h.orderedControl = some 1 ∧ h.receiptPersisted = some false ∧
      (h.coreState = "running" ∨ h.coreState = "stopped") ∧ h.appliedRevision = some 0 ∧
      h.inbounds = some 0 ∧ h.managedClients = some 0)
    (.policyError "Replacement must be a fresh, stopped, unassigned Node installation")
  return identity

/-- {lit}`_health`; the result is the installation. -/
def checkHealth (row : Row) : Body → Except PairError String
  | .health h =>
      match validateFresh h with
      | .error _ => .error (.rejected "pairing_fresh_agent_required")
      | .ok (agentId, installation) => do
          ensure (h.replacementPrepare = some 1) (.rejected "pairing_guarded_rotation_unsupported")
          ensure (agentId = row.nodeId ∧
              (row.installationId = "" ∨ row.installationId = installation))
            (.rejected "pairing_installation_changed")
          ensure (h.coreError = "" ∧ h.maintenanceError = "")
            (.rejected "pairing_agent_not_healthy")
          return installation
  | _ => .error (.rejected "pairing_fresh_agent_required")

/-- The first transaction of {lit}`retry`; {lit}`none` if the enrollment is not pending. -/
def retryTx (attempt : String) (o : Chance) : HubTx (Option Row) :=
  Tx.transaction do
    let row? ← pending attempt
    match row? with
    | none => return none
    | some row => do
        Tx.require (row.cancelling = false) (.rejected "pairing_cancellation_in_progress")
        available row.nodeId row.origin row.installationId
        Tx.require (row.operationRevision < 9223372036854775806)
          (.policyError "Node pairing operation sequence exhausted")
        Tx.write fun s => s.updatePairing attempt fun r =>
          { r with operationRevision := row.operationRevision + 1, updatedAt := o.now }
        return some { row with operationRevision := row.operationRevision + 1 }

/-- The transaction that pins the installation. -/
def pinTx (attempt : String) (row : Row) (installation : String) (_ : Chance) : HubTx Row :=
  Tx.transaction do
    assertRow attempt row
    available row.nodeId row.origin installation
    let s ← Tx.read id
    Tx.require (s.pairings.rows.all (fun p =>
      p.1 = attempt || p.2.installationId ≠ installation) = true) .integrityError
    Tx.write fun s => s.updatePairing attempt fun r => { r with installationId := installation }
    return { row with installationId := installation }

/-- Pin the installation unless that has been done. -/
def pin (attempt : String) (row : Row) (bootstrap : String) : HubScript Row :=
  if row.installationId = "" then do
    let body ← exchange attempt row bootstrap .health
    let installation ← Script.ofExcept (checkHealth row body)
    Script.perform () (pinTx attempt row installation)
  else pure row

/-- The transaction that announces the rotation. -/
def rotatingTx (attempt : String) (row : Row) (o : Chance) : HubTx Unit :=
  Tx.transaction do
    assertRow attempt row
    Tx.write fun s => s.updatePairing attempt fun r =>
      { r with phase := .rotating, updatedAt := o.now }

/-- The rotation, with the bootstrap token; the result is the health that the candidate gets. -/
def rotate (attempt : String) (row : Row) (bootstrap candidate : String) : HubScript Body := do
  let body ← exchange attempt row bootstrap .health
  let _ ← Script.ofExcept (checkHealth row body)
  Script.perform () (rotatingTx attempt row)
  let _ ← exchange attempt row bootstrap (.rotateToken candidate)
  exchange attempt row candidate .health

/-- {lit}`_finish`. -/
def finishTx (attempt : String) (row : Row) (o : Chance) : HubTx Unit :=
  Tx.transaction do
    assertRow attempt row
    Tx.require (row.cancelling = false) (.rejected "pairing_cancellation_in_progress")
    Tx.write fun s => { s with pairings := s.pairings.erase attempt }
    insertNode row.nodeId
      { name := row.name
        origin := row.origin
        tokenEnc := row.candidateEnc
        dataAddress := row.dataAddress
        priority := row.priority
        failoverEnabled := row.failoverEnabled
        enabled := true } o.binding
    let s ← Tx.read id
    let binding ← Tx.demand (s.activeBinding row.nodeId) .integrityError
    updateInstallation binding row.installationId
    Tx.require (s.history.get? attempt = none) .integrityError
    Tx.write fun s => { s with
      history := s.history.insert attempt
        { nodeId := row.nodeId
          bindingId := binding
          installationId := row.installationId
          name := row.name
          origin := row.origin
          createdAt := row.createdAt
          completedAt := o.now } }

/-- The body of {lit}`retry`: only a 401 to the candidate leads to the bootstrap token. -/
def enroll (attempt : String) (row : Row) : HubScript Unit := do
  let bootstrap ← Script.ofExcept (openSealed cipher row.bootstrapEnc)
  let candidate ← Script.ofExcept (openSealed cipher row.candidateEnc)
  let row ← pin attempt row bootstrap
  let body ← (exchange attempt row candidate .health).handle fun e =>
    if e = .http 401 then rotate attempt row bootstrap candidate else .raise e
  let _ ← Script.ofExcept (checkHealth row body)
  Script.perform () (finishTx attempt row)

/-- The code of an exception. -/
def PairError.code (other : String) : PairError → String
  | .rejected code => code
  | _ => other

/-- The exception handlers of {lit}`retry` and {lit}`cancel`. -/
def noteError (attempt : String) (row : Row) (message : String) (onlyCancelling : Bool)
    (o : Chance) : HubTx Unit :=
  Tx.transaction <| Tx.write fun s => s.updatePairing attempt fun r =>
    if r.operationRevision = row.operationRevision ∧ (onlyCancelling = true → r.cancelling = true)
    then { r with lastError := message, updatedAt := o.now }
    else r

/-- {lit}`retry`. -/
def retry (attempt : String) : HubScript Unit := do
  let row? ← Script.perform () (retryTx attempt)
  match row? with
  | none => pure ()
  | some row =>
      (enroll cipher attempt row).handle fun e =>
        Script.perform () (noteError attempt row
          (e.code "pairing_contact_or_verification_failed") false)

/-! ## Cancellation -/

/-- The receipt of a cancellation. -/
def Row.cancellation (row : Row) (outcome : Outcome) (now : ℕ) : Cancellation where
  nodeId := row.nodeId
  name := row.name
  origin := row.origin
  installationId := row.installationId
  outcome := outcome
  createdAt := row.createdAt
  completedAt := now

/-- {lit}`_finish_cancel`. -/
def finishCancel (attempt : String) (row : Row) (outcome : Outcome) (o : Chance) : HubTx Unit := do
  assertRow attempt row
  let s ← Tx.read id
  Tx.require (s.cancellations.get? attempt = none) .integrityError
  Tx.write fun s => { s with
    cancellations := s.cancellations.insert attempt (row.cancellation outcome o.now)
    pairings := s.pairings.erase attempt }

/-- {lit}`cancel` before a rotation may have been sent. -/
def withdraw (attempt : String) (row : Row) (o : Chance) : HubTx (Option Row) := do
  Tx.write fun s => s.updatePairing attempt fun r =>
    { r with operationRevision := row.operationRevision + 1 }
  finishCancel attempt { row with operationRevision := row.operationRevision + 1 }
    .withdrawnBeforeRotation o
  return none

/-- The disposal token: a saved one, or a new one when the journal can be read. -/
def sealDisposal (row : Row) (o : Chance) : HubTx String :=
  match row.disposalEnc with
  | some sealed => pure sealed
  | none => do
      let _ ← Tx.ofExcept (openSealed cipher row.bootstrapEnc)
      let _ ← Tx.ofExcept (openSealed cipher row.candidateEnc)
      Tx.write fun s => { s with tokens := o.token :: s.tokens }
      return cipher.encrypt o.nonce o.token

/-- A row of which the intent to cancel is saved. -/
def Row.intended (row : Row) (sealed : String) (now : ℕ) (r : Row) : Row :=
  { r with
    cancelling := true
    disposalEnc := some sealed
    operationRevision := row.operationRevision + 1
    lastError := ""
    updatedAt := now }

/-- {lit}`cancel` after a rotation may have been sent: the intent is saved. -/
def intend (attempt : String) (row : Row) (o : Chance) : HubTx (Option Row) := do
  Tx.require (row.phase = .rotating) (.rejected "pairing_cancellation_state_invalid")
  Tx.require (row.installationId ≠ "") (.rejected "pairing_cancellation_identity_missing")
  let sealed ← sealDisposal cipher row o
  Tx.write fun s => s.updatePairing attempt (row.intended sealed o.now)
  Tx.read fun s => s.pairings.get? attempt

/-- The first transaction of {lit}`cancel`; {lit}`none` when nothing is left to do. -/
def cancelTx (attempt : String) (o : Chance) : HubTx (Option Row) :=
  Tx.transaction do
    let row? ← pending attempt
    let s ← Tx.read id
    match row? with
    | none =>
        if (s.cancellations.get? attempt).isSome then return none
        else if (s.history.get? attempt).isSome then
          Tx.raise (.rejected "pairing_already_registered_cannot_cancel")
        else Tx.raise (.policyError "Node pairing attempt not found")
    | some row => do
        available row.nodeId row.origin row.installationId
        Tx.require (row.operationRevision < 9223372036854775806)
          (.policyError "Node pairing operation sequence exhausted")
        if row.phase = .pending ∧ row.cancelling = false then withdraw attempt row o
        else intend cipher attempt row o

/-- The first of the saved credentials that the Agent does not refuse with a 401. -/
def findCredential (attempt : String) (row : Row) : List String → HubScript (Option String)
  | [] => pure none
  | sealed :: rest => do
      let credential ← Script.ofExcept (openSealed cipher sealed)
      let body? ← (some <$> exchange attempt row credential .health).handle fun e =>
        if e = .http 401 then pure none else .raise e
      match body? with
      | some body => do
          let _ ← Script.ofExcept (checkHealth row body)
          return some credential
      | none => findCredential attempt row rest

/-- Rotate the Agent to the disposal token unless it has it. -/
def revoke (attempt : String) (row : Row) (current disposal : String) : HubScript Unit :=
  if current = disposal then pure ()
  else (fun _ => ()) <$> exchange attempt row current (.rotateToken disposal)

/-- Whether a health shows a Node that is stopped and stays so. -/
def durablyIdle : Body → Bool
  | .health h =>
      h.coreState = "stopped" && h.effectiveRunning = some false && h.manualStop = some true
  | _ => false

/-- {lit}`_require_idle`. -/
def requireIdle (row : Row) (body : Body) : Except PairError Unit := do
  let _ ← checkHealth row body
  ensure (durablyIdle body = true) (.rejected "pairing_target_not_durably_idle")

/-- Stop the Agent unless it is idle; the result is its last health. -/
def makeIdle (attempt : String) (row : Row) (disposal : String) (body : Body) : HubScript Body :=
  if durablyIdle body then pure body
  else do
    let _ ← exchange attempt row disposal .idle
    exchange attempt row disposal .health

/-- The Agent refuses a credential with a 401. -/
def requireRevoked (attempt : String) (row : Row) (sealed : String) : HubScript Unit := do
  let credential ← Script.ofExcept (openSealed cipher sealed)
  let accepted ← ((fun _ => true) <$> exchange attempt row credential .health).handle fun e =>
    if e = .http 401 then pure false else .raise e
  Script.ofExcept (ensure (accepted = false)
    (.rejected "pairing_cancellation_old_credential_accepted"))

/-- The body of {lit}`cancel`: revoke first, then stop, then verify both. -/
def discard (attempt : String) (row : Row) (sealed : String) : HubScript Unit := do
  let disposal ← Script.ofExcept (openSealed cipher sealed)
  let current? ← findCredential cipher attempt row [sealed, row.candidateEnc, row.bootstrapEnc]
  let current ← Script.ofExcept
    (current?.elim (.error (.rejected "pairing_cancellation_credential_rejected")) .ok)
  revoke attempt row current disposal
  let body ← exchange attempt row disposal .health
  let _ ← Script.ofExcept (checkHealth row body)
  let body ← makeIdle attempt row disposal body
  Script.ofExcept (requireIdle row body)
  requireRevoked cipher attempt row row.candidateEnc
  requireRevoked cipher attempt row row.bootstrapEnc
  let body ← exchange attempt row disposal .health
  Script.ofExcept (requireIdle row body)
  Script.perform () fun o =>
    Tx.transaction (finishCancel attempt row .discardedAfterRotation o)

/-- {lit}`cancel`. -/
def cancel (attempt : String) (confirmCancel acknowledgeCredentialReset : Bool) :
    HubScript Unit :=
  if confirmCancel = true ∧ acknowledgeCredentialReset = true then do
    let row? ← Script.perform () (cancelTx cipher attempt)
    match row? with
    | none => pure ()
    | some row =>
        (discard cipher attempt row (row.disposalEnc.getD "")).handle fun e =>
          Script.perform () (noteError attempt row
            (e.code "pairing_cancellation_contact_or_verification_failed") true)
  else .raise (.policyError
    "Confirm cancellation and possible reinstall or local token reset before reuse")

/-- The calls of the Hub. -/
inductive Call where
  | pair (code : PairCode)
  | retry (attempt : String) (confirmRetry : Bool)
  | cancel (attempt : String) (confirmCancel acknowledgeCredentialReset : Bool)
deriving DecidableEq, Repr

/-- The script of a call. -/
def Call.script : Call → HubScript Unit
  | .pair code => do
      let attempt ← Pairing.begin cipher code
      Pairing.retry cipher attempt
  | .retry attempt confirmRetry =>
      if confirmRetry then Pairing.retry cipher attempt
      else .raise (.policyError "Explicit Node pairing retry confirmation required")
  | .cancel attempt confirmCancel acknowledgeCredentialReset =>
      Pairing.cancel cipher attempt confirmCancel acknowledgeCredentialReset

/-! ## Surroundings -/

/-- {lit}`put` of the registry: add or edit a Node. -/
def putNode (nodeId : String) (node : Node) (binding : String) : HubTx Unit :=
  Tx.transaction do
    let s ← Tx.read id
    Tx.require (s.replacements.rows.all (fun t => t.2.1 ≠ node.origin) = true)
      (.policyError "Node endpoint is reserved by a replacement preparation")
    if (s.nodes.get? nodeId).isSome then do
      Tx.require (s.reservesNode nodeId node.origin = false) .integrityError
      Tx.require (s.nodes.rows.all (fun n => n.1 = nodeId || n.2.origin ≠ node.origin) = true)
        .integrityError
      Tx.write fun s => { s with nodes := s.nodes.update nodeId fun _ => node }
    else insertNode nodeId node binding

/-- {lit}`delete` of the registry. -/
def deleteNode (nodeId : String) (usage : Bool) : HubTx Unit :=
  Tx.transaction do
    let s ← Tx.read id
    Tx.require ((s.installations.rows.all fun i => !(i.2.nodeId = nodeId && i.2.retired)) = true ∧
        usage = false)
      (.policyError
        "Node has retained installation/usage history; disable it instead of deleting it")
    Tx.require ((s.nodes.get? nodeId).isSome = true) (.policyError "Node not found")
    Tx.write fun s => { s with
      installations := s.installations.filterRows fun _ i => i.nodeId ≠ nodeId
      nodes := s.nodes.erase nodeId }

/-- {lit}`observe` of the installations pins the first identity that a Node shows. -/
def observe (binding installationId : String) : HubTx Unit :=
  Tx.transaction do
    let s ← Tx.read id
    Tx.require ((s.installations.get? binding).any (·.installationId = "") = true)
      (.policyError "Node installation changed; explicit Node replacement required")
    updateInstallation binding installationId

/-- {lit}`_replace_locked`: another installation takes the place of a Node's. -/
def replaceInstallation
    (nodeId origin tokenEnc dataAddress agentId installationId binding : String) : HubTx Unit :=
  Tx.transaction do
    let s ← Tx.read id
    let old ← Tx.demand (s.activeBinding nodeId)
      (.policyError "Node installation is no longer registered")
    Tx.require (s.installations.rows.all (fun i => i.2.installationId ≠ installationId) = true)
      (.policyError "Cannot reuse a registered or retired installation")
    Tx.write fun s => { s with
      installations := s.installations.update old fun i => { i with retired := true } }
    insertBinding binding ⟨nodeId, s.nextGeneration nodeId, agentId, installationId, false⟩
    Tx.require (s.reservesNode nodeId origin = false) .integrityError
    Tx.require (s.nodes.rows.all (fun n => n.1 = nodeId || n.2.origin ≠ origin) = true)
      .integrityError
    Tx.write fun s => { s with
      nodes := s.nodes.update nodeId fun n =>
        { n with origin := origin, tokenEnc := tokenEnc, dataAddress := dataAddress,
                 enabled := false } }

/-- A replacement reserves or pins its target, or is over. -/
def reserveTarget (attempt : String) (target : Option (String × String)) : HubTx Unit :=
  Tx.transaction do
    let s ← Tx.read id
    match target with
    | none => Tx.write fun s => { s with replacements := s.replacements.erase attempt }
    | some target => do
        Tx.require (s.reservesTarget target.1 target.2 = false) .integrityError
        Tx.write fun s => { s with
          replacements := s.replacements.upsert attempt target fun _ => target }

/-- What happens outside of the calls. -/
inductive Surroundings where
  /-- The Agent serves a request that was sent; it may do so again. -/
  | served (request : ℕ) (service : Service)
  /-- An Agent is installed at an endpoint, or gets a new token locally. -/
  | installed (origin token : String)
  | put (nodeId : String) (node : Node) (binding : String)
  | deleted (nodeId : String) (usage : Bool)
  | observed (binding installationId : String)
  | replaced (nodeId origin tokenEnc dataAddress agentId installationId binding : String)
  | reserved (attempt : String) (target : Option (String × String))
deriving DecidableEq, Repr

/-- The Agent at the endpoint of a request serves it. -/
def Site.served (s : Site) (i : ℕ) (service : Service) : Site :=
  match s.requests[i]? with
  | none => s
  | some q =>
      match s.agents.get? q.origin with
      | none => s
      | some agent =>
          let result := serve agent.token q service
          { s with
            agents := s.agents.update q.origin fun a => { a with token := result.2 }
            answers := s.answers ++ [⟨i, agent.changes, result.1⟩] }

/-- A token that is set locally is a new one. -/
def Site.installed (s : Site) (origin token : String) : Site :=
  if token ∈ s.tokens then s
  else
    { s with
      agents := s.agents.upsert origin ⟨token, 1⟩ fun a => ⟨token, a.changes + 1⟩
      tokens := token :: s.tokens }

/-- What happens outside of the calls, to the Hub and the Agents. -/
def Surroundings.happen : Surroundings → Site → Site
  | .served request service, s => s.served request service
  | .installed origin token, s => s.installed origin token
  | .put nodeId node binding, s => (putNode nodeId node binding s).2
  | .deleted nodeId usage, s => (deleteNode nodeId usage s).2
  | .observed binding installationId, s => (observe binding installationId s).2
  | .replaced nodeId origin tokenEnc dataAddress agentId installationId binding, s =>
      (replaceInstallation nodeId origin tokenEnc dataAddress agentId installationId binding s).2
  | .reserved attempt target, s => (reserveTarget attempt target s).2

end Pairing
end Nodes
end DarkXray
