import Mathlib.Data.Rat.Init
import Mathlib.Algebra.Order.Ring.Rat
import DarkXray.Library.Procedures

/-!
# Renewal of the accounting lease

{lit}`renew_accounting_lease`: the Hub grants a lease to a Node only over traffic that it
has fully imported, under a policy that it has enforced since, and for a configuration that
the Node has acknowledged.  The calls that the procedure makes may fail at any time, and other
parts of the Hub may store another desired state during each of them.

Main results:

- Theorem {lit}`verifyPolicy_safe`: the policy check succeeds only over a healthy engine and
  clients without unresolved operations.
- Theorem {lit}`verifiedState_safe`: the state to grant for is current and acknowledged when it is
  read.
- Theorem {lit}`grantLoop_safe`: a round of the loop sends a grant only over what it has
  checked since the last import, and imports at most as often as it has refreshes left.
- Theorem {lit}`lease_fully_accounted`: every grant of a renewal is sent over fully accounted
  bytes, and only the answer to an old challenge is retried.
- Theorem {lit}`grant_for_former_state`: a grant for a state that is no longer the current one.
-/

namespace DarkXray
namespace Nodes

open Library

/-! ## Data -/

/-- A result of {lit}`sync_traffic`, as far as the renewal reads it; an absent or empty
challenge is none. -/
structure AccountedTraffic where
  challenge : Option String
  requestedAt : Option ℚ
  chargedBytes : ℕ
  ignoredClients : ℤ
  restoreClients : ℤ
deriving DecidableEq

/-- The desired state that {lit}`desired_provider` returns. -/
structure WantedState where
  revision : ℕ
  hash : String
deriving DecidableEq

/-- The row of {lit}`remote_node_desired_state`, without its payload. -/
structure DesiredStatus where
  revision : ℕ
  hash : String
  appliedRevision : ℕ
  appliedHash : String
  lastError : String
deriving DecidableEq

/-- {lit}`pending` of {lit}`desired_state`. -/
def DesiredStatus.pending (row : DesiredStatus) : Bool :=
  row.revision ≠ row.appliedRevision || row.hash ≠ row.appliedHash

/-- {lit}`acknowledged`; without a row nothing has been applied. -/
def acknowledged (state : WantedState) : Option DesiredStatus → Bool
  | none => false
  | some row => !row.pending && row.lastError = "" && row.revision = state.revision &&
      row.hash = state.hash && row.appliedRevision = state.revision &&
      row.appliedHash = state.hash

/-- A row of {lit}`managed_clients` that is not deleted. -/
structure ManagedOperation where
  email : String
  state : String
  op : String
  error : String
deriving DecidableEq

/-- {lit}`lease_blocked`. -/
def leaseBlocked (allowed : List String) (row : ManagedOperation) : Bool :=
  if row.email ∉ allowed then false
  else if !(row.op ≠ "none" || row.error ≠ "" || row.state ≠ "applied") then false
  else if row.op = "delete" && row.state = "error" &&
      "Node connection failed:".toList.isPrefixOf row.error.toList then false
  else true

/-- {lit}`manager.last_error`, {lit}`engine.stats_error` and {lit}`writes_enabled`. -/
structure HealthReply where
  lastError : String
  statsError : String
  writesEnabled : Bool
deriving DecidableEq

/-- The accounting engine is healthy and writable. -/
def HealthReply.ok (h : HealthReply) : Bool :=
  !(h.lastError ≠ "" || h.statsError ≠ "" || !h.writesEnabled)

/-- The body of a grant. -/
structure GrantBody where
  challenge : String
  revision : ℕ
  hash : String
  controlRevision : ℤ
deriving DecidableEq

/-- An exception, with the HTTP status of an answer of the Node. -/
structure CallError where
  status : Option ℕ
  message : String
deriving DecidableEq

/-- The one answer that is retried. -/
def CallError.staleChallenge (e : CallError) : Bool :=
  e.status = some 409 &&
    e.message = "Node HTTP 409: Accounting lease challenge is expired, stale or unknown"

/-! ## Calls -/

/-- What the renewal calls. -/
inductive LeaseCall where
  /-- {lit}`require_accounted_snapshot`. -/
  | requireAccounted (traffic : AccountedTraffic)
  /-- Enter {lit}`installations.operation`. -/
  | enter
  /-- Leave it without an exception. -/
  | leave
  /-- {lit}`engine.collect_stats(force=True, strict=True)`. -/
  | collectStats
  /-- {lit}`manager.tick(suppress=False)`. -/
  | tick
  /-- Read the health of the engines. -/
  | health
  /-- {lit}`_allowed_traffic_clients`. -/
  | allowedClients
  /-- Read the rows of {lit}`managed_clients` that are not deleted. -/
  | managedRows
  | desiredProvider
  /-- {lit}`desired_state` without the payload. -/
  | desiredState
  | syncProvider
  | syncDesired (state : WantedState)
  /-- {lit}`commands.status`. -/
  | commandStatus
  /-- {lit}`time.monotonic`. -/
  | clock
  /-- Send a grant. -/
  | grant (body : GrantBody)
  /-- Fetch the traffic of the Node. -/
  | fetchTraffic
  /-- {lit}`apply_traffic_snapshot` with the fetched items; the clock was read before. -/
  | applySnapshot (challenge : Option String) (requestedAt : ℚ)
deriving DecidableEq

/-- What a call returns. -/
inductive LeaseAnswer where
  | done
  | raised (e : CallError)
  | health (h : HealthReply)
  | clients (emails : List String)
  | rows (rows : List ManagedOperation)
  | wanted (state : WantedState)
  | status (row : Option DesiredStatus)
  | control (revision : ℤ)
  | time (t : ℚ)
  /-- The fetched document: whether its items are a list, and its challenge. -/
  | document (valid : Bool) (challenge : Option String)
  /-- The result of an import: charged bytes, and ignored and counted identities. -/
  | imported (chargedBytes : ℕ) (ignoredClients restoreClients : ℤ)
  /-- The answer to a grant: whether its lease is valid. -/
  | lease (valid : Bool)
deriving DecidableEq

/-- The exception that a call raised. -/
def LeaseAnswer.exception : LeaseAnswer → Option CallError
  | .raised e => some e
  | _ => none

/-- What a call returns, and the desired state of the Node after it. -/
structure LeaseReply where
  answer : LeaseAnswer
  row : Option DesiredStatus

/-- How the renewal ends. -/
inductive Renewed where
  /-- The Agent does not support accounting leases. -/
  | unsupported
  | lease
  | error (message : String)
deriving DecidableEq

/-! ## The procedure -/

/-- A step of the renewal: a value, or the exception that ends it. -/
abbrev LeaseStep (α : Type) :=
  Proc LeaseCall LeaseReply (Except CallError α)

namespace LeaseStep

/-- Go on unless an exception was raised. -/
def andThen {α β : Type} (first : LeaseStep α) (f : α → LeaseStep β) : LeaseStep β :=
  Proc.bind first fun
    | .ok a => f a
    | .error e => .done (.error e)

/-- Raise an exception. -/
def raise {α : Type} (message : String) : LeaseStep α :=
  .done (.error ⟨none, message⟩)

/-- The value of an answer, or the exception that was raised. -/
def received {α : Type} (read : LeaseAnswer → Option α) (answer : LeaseAnswer) :
    Except CallError α :=
  match answer.exception with
  | some e => .error e
  | none => (read answer).elim (.error ⟨none, "unexpected answer"⟩) .ok

/-- One call, with the answers that it understands. -/
def call {α : Type} (c : LeaseCall) (read : LeaseAnswer → Option α) : LeaseStep α :=
  .act c fun reply => .done (received read reply.answer)

/-- A call without a result. -/
def command (c : LeaseCall) : LeaseStep Unit :=
  call c fun
    | .done => some ()
    | _ => none

end LeaseStep

open LeaseStep

/-- Read the health of the engines. -/
def readHealth : LeaseStep HealthReply :=
  call .health fun | .health h => some h | _ => none

/-- Read the identities whose traffic a Node may report. -/
def readAllowed : LeaseStep (List String) :=
  call .allowedClients fun | .clients emails => some emails | _ => none

/-- Read the rows of the managed clients. -/
def readManaged : LeaseStep (List ManagedOperation) :=
  call .managedRows fun | .rows rows => some rows | _ => none

/-- {lit}`verify_hub_accounting_policy`. -/
def verifyPolicy : LeaseStep Unit :=
  andThen (command .collectStats) fun _ =>
  andThen (command .tick) fun _ =>
  andThen readHealth fun h =>
  if !h.ok then raise "Hub accounting/policy engine is not healthy and writable"
  else
    andThen readAllowed fun allowed =>
    andThen readManaged fun rows =>
    if rows.any (leaseBlocked allowed) then
      raise "Managed client policy has unresolved operations or errors"
    else .done (.ok ())

/-- Compute and store the desired state. -/
def provideDesired : LeaseStep WantedState :=
  call .desiredProvider fun | .wanted state => some state | _ => none

/-- Read the desired state without its payload. -/
def readDesired : LeaseStep (Option DesiredStatus) :=
  call .desiredState fun | .status row => some row | _ => none

/-- Read the revision of the ordered control. -/
def readControl : LeaseStep ℤ :=
  call .commandStatus fun | .control revision => some revision | _ => none

/-- The acknowledged state: its row as it was read last. -/
def confirmState (state : WantedState) (current : Option DesiredStatus) :
    LeaseStep (WantedState × ℤ) :=
  if !acknowledged state current then
    raise "Node has not acknowledged current quota/configuration"
  else
    andThen readControl fun revision => .done (.ok (state, revision))

/-- {lit}`verified_state`. -/
def verifiedState : LeaseStep (WantedState × ℤ) :=
  andThen provideDesired fun state =>
  andThen readDesired fun current =>
  if !acknowledged state current then
    andThen (command .syncProvider) fun _ =>
    andThen (command (.syncDesired state)) fun _ =>
    andThen readDesired fun current => confirmState state current
  else confirmState state current

/-- Read the clock. -/
def readClock : LeaseStep ℚ :=
  call .clock fun | .time t => some t | _ => none

/-- Fetch the traffic of the Node: whether the document is valid, and its challenge. -/
def fetchTraffic : LeaseStep (Bool × Option String) :=
  call .fetchTraffic fun | .document valid challenge => some (valid, challenge) | _ => none

/-- Import the fetched traffic. -/
def importTraffic (challenge : Option String) (requestedAt : ℚ) : LeaseStep AccountedTraffic :=
  call (.applySnapshot challenge requestedAt) fun
    | .imported charged ignored restored =>
        some ⟨challenge, some requestedAt, charged, ignored, restored⟩
    | _ => none

/-- {lit}`sync_traffic`. -/
def syncTraffic : LeaseStep AccountedTraffic :=
  andThen readClock fun requestedAt =>
  andThen fetchTraffic fun doc =>
  if !doc.1 then raise "Invalid node traffic response"
  else importTraffic doc.2 requestedAt

/-- {lit}`CHALLENGE_ACK_MAX_AGE_SECONDS`. -/
def challengeAckMaxAge : ℚ :=
  18

/-- {lit}`MAX_CHALLENGE_REFRESHES`. -/
def maxChallengeRefreshes : ℕ :=
  2

/-- {lit}`_challenge_hub_age`: the age of the challenge since its request began. -/
def challengeHubAge (traffic : AccountedTraffic) : LeaseStep (Option ℚ) :=
  match traffic.requestedAt with
  | none => .done (.ok none)
  | some issued =>
      andThen readClock fun now =>
      if now - issued < 0 then raise "Accounting lease monotonic challenge clock invalid"
      else .done (.ok (some (now - issued)))

/-- Send the grant; {lit}`none` is the one answer that is retried. -/
def sendGrant (traffic : AccountedTraffic) (state : WantedState) (revision : ℤ) :
    LeaseStep (Option Unit) :=
  .act (.grant ⟨traffic.challenge.getD "", state.revision, state.hash, revision⟩) fun reply =>
    match reply.answer with
    | .raised e => if e.staleChallenge then .done (.ok none) else .done (.error e)
    | .lease true => .done (.ok (some ()))
    | _ => raise "Node did not acknowledge a valid accounting lease"

/-- Import the traffic again, and check the policy and the configuration over it. -/
def refresh : LeaseStep (AccountedTraffic × WantedState × ℤ) :=
  andThen syncTraffic fun traffic =>
  if traffic.challenge.isNone then raise "Fresh accounted Node challenge missing"
  else
    andThen (command (.requireAccounted traffic)) fun _ =>
    andThen (if traffic.chargedBytes ≠ 0 then verifyPolicy else .done (.ok ())) fun _ =>
    andThen verifiedState fun checked => .done (.ok (traffic, checked))

/-- One round of the loop: the grant is withheld while the challenge is too old, and after a
withheld or rejected grant the procedure goes on as given. -/
def grantRound (traffic : AccountedTraffic) (state : WantedState) (revision : ℤ)
    (again : Bool → LeaseStep Unit) : LeaseStep Unit :=
  andThen (challengeHubAge traffic) fun age =>
  let stale := age.any fun a => challengeAckMaxAge < a
  andThen (if stale then .done (.ok none) else sendGrant traffic state revision) fun
    | some () => .done (.ok ())
    | none => again stale

/-- The loop of the renewal over the number of refreshes that are left. -/
def grantLoop : ℕ → AccountedTraffic → WantedState → ℤ → LeaseStep Unit
  | 0, traffic, state, revision =>
      grantRound traffic state revision fun stale =>
        raise (if stale then "Accounting lease challenge remained too old after bounded refresh"
          else "Node HTTP 409: Accounting lease challenge is expired, stale or unknown")
  | left + 1, traffic, state, revision =>
      grantRound traffic state revision fun _ =>
        andThen refresh fun next => grantLoop left next.1 next.2.1 next.2.2

/-- {lit}`renew_accounting_lease`. -/
def renewAccountingLease (traffic : AccountedTraffic) : Proc LeaseCall LeaseReply Renewed :=
  if traffic.challenge.isNone then .done .unsupported
  else
    Proc.bind (command (.requireAccounted traffic)) fun
      | .error e => .done (.error e.message)
      | .ok _ =>
          Proc.bind (andThen (command .enter) fun _ =>
              andThen verifyPolicy fun _ =>
              andThen verifiedState fun checked =>
              andThen (grantLoop maxChallengeRefreshes traffic checked.1 checked.2) fun _ =>
              command .leave) fun
            | .error e => .done (.error ("Accounting lease withheld: " ++ e.message))
            | .ok _ => .done .lease

/-! ## The history of a renewal -/

/-- What has happened in a renewal: the desired state of the Node, and as it was when it was last
read, unless the renewal has called since what may change it; the last import and whether it was
accepted, what the policy check has read so far, whether the policy has still to be verified, the
time if the clock was read last, the number of imports, and whether a call failed or the lease was
granted. -/
structure LeaseLedger where
  row : Option DesiredStatus
  seen : Option DesiredStatus
  traffic : AccountedTraffic
  accounted : Bool
  healthy : Bool
  allowed : List String
  unverified : Bool
  now : Option ℚ
  refreshes : ℕ
  failed : Bool
  granted : Bool

/-- The ledger of a renewal over an import. -/
def LeaseLedger.start (row : Option DesiredStatus) (traffic : AccountedTraffic) :
    LeaseLedger where
  row := row
  seen := none
  traffic := traffic
  accounted := false
  healthy := false
  allowed := []
  unverified := true
  now := none
  refreshes := 0
  failed := false
  granted := false

/-- The call failed: only the rejection of an old challenge is no failure. -/
def LeaseLedger.fails (g : LeaseLedger) (c : LeaseCall) : LeaseAnswer → Bool
  | .raised e =>
      match c with
      | .grant _ => !e.staleChallenge
      | _ => true
  | .health h => !h.ok
  | .rows rows => rows.any (leaseBlocked g.allowed)
  | .document valid _ => !valid
  | .lease valid => !valid
  | _ => false

/-- Calls of the renewal that may change the desired state of the Node on the Hub. -/
def LeaseCall.mayWrite : LeaseCall → Bool
  | .collectStats | .tick | .desiredProvider | .syncProvider | .syncDesired _
  | .applySnapshot _ _ => true
  | _ => false

/-- The ledger after a call. -/
def LeaseLedger.after (g : LeaseLedger) (c : LeaseCall) (reply : LeaseReply) : LeaseLedger :=
  let g' := { g with
    row := reply.row
    seen := if c.mayWrite then none else g.seen
    now := none
    failed := g.failed || g.fails c reply.answer }
  match c, reply.answer with
  | .requireAccounted traffic, .done => { g' with accounted := traffic = g.traffic }
  | .collectStats, _ => { g' with healthy := false }
  | .health, .health h => { g' with healthy := h.ok }
  | .allowedClients, .clients emails => { g' with allowed := emails }
  | .managedRows, .rows rows =>
      if g.healthy && !rows.any (leaseBlocked g.allowed) then { g' with unverified := false }
      else g'
  | .desiredState, .status _ => { g' with seen := reply.row }
  | .clock, .time t => { g' with now := some t }
  | .fetchTraffic, _ => { g' with refreshes := g.refreshes + 1 }
  | .applySnapshot challenge requestedAt, .imported charged ignored restored =>
      { g' with
        traffic := ⟨challenge, some requestedAt, charged, ignored, restored⟩
        accounted := false
        unverified := g.unverified || charged ≠ 0 }
  | .grant _, .lease valid => { g' with granted := valid }
  | _, _ => g'

/-- A row says that a state is the current one, and acknowledged. -/
def DesiredStatus.Settled (row : DesiredStatus) (revision : ℕ) (hash : String) : Prop :=
  row.revision = revision ∧ row.hash = hash ∧ row.appliedRevision = revision ∧
    row.appliedHash = hash ∧ row.lastError = ""

/-- A grant over fully accounted bytes: for the challenge of the last import, which was
accepted and under which the policy has been verified, for the state that was current and
acknowledged when it was last read, and with a challenge that is not too old. -/
structure GrantAccounted (g : LeaseLedger) (body : GrantBody) : Prop where
  challenge : g.traffic.challenge = some body.challenge
  accounted : g.accounted = true
  verified : g.unverified = false
  current : ∃ row, g.seen = some row ∧ row.Settled body.revision body.hash
  young : ∃ now issued, g.now = some now ∧ g.traffic.requestedAt = some issued ∧
    now - issued ≤ 18

/-- No call follows a failure; a grant is accounted, and traffic is imported at most twice. -/
def LeaseLedger.Allowed (g : LeaseLedger) (c : LeaseCall) : Prop :=
  g.failed = false ∧
    match c with
    | .grant body => g.granted = false ∧ GrantAccounted g body
    | .fetchTraffic => g.granted = false ∧ g.refreshes < maxChallengeRefreshes
    | _ => True

/-- The desired state is read as it is; anything may change it during a call. -/
def LeaseLedger.Possible (_ : LeaseLedger) (c : LeaseCall) (reply : LeaseReply) : Prop :=
  ∀ row, c = .desiredState → reply.answer = .status row → reply.row = row

/-- The monitor of a renewal. -/
def leaseMonitor : Monitor LeaseCall LeaseReply LeaseLedger where
  allowed := LeaseLedger.Allowed
  possible := LeaseLedger.Possible
  after := LeaseLedger.after

/-- A renewal only ends with a lease that was granted, and a failed one ends in an error. -/
def LeaseLedger.Ends (g : LeaseLedger) (r : Renewed) : Prop :=
  (r = .lease → g.granted = true ∧ g.failed = false) ∧
    (g.failed = true → ∃ message, r = .error message)

/-! ## Rules -/

/-- A step that succeeds in a state with a certain property. -/
def LeaseStep.Keeps {α : Type} (p : LeaseStep α) (post : LeaseLedger → α → Prop)
    (g : LeaseLedger) : Prop :=
  p.Safe leaseMonitor (fun g r => ∀ a, r = .ok a → post g a) g

section Rules

variable {α β : Type} {post : LeaseLedger → α → Prop} {post' : LeaseLedger → β → Prop}
  {g : LeaseLedger}

/-- The rule of a value. -/
theorem keeps_ok {a : α} (h : post g a) : LeaseStep.Keeps (.done (.ok a)) post g := by
  intro b hb
  cases hb
  exact h

/-- The rule of an exception. -/
theorem keeps_raise {message : String} : (raise message : LeaseStep α).Keeps post g := by
  intro b hb
  cases hb

/-- The rule of sequence. -/
theorem LeaseStep.Keeps.andThen {p : LeaseStep α} {f : α → LeaseStep β} (h : p.Keeps post g)
    (hf : ∀ g a, post g a → (f a).Keeps post' g) : (LeaseStep.andThen p f).Keeps post' g := by
  apply Proc.Safe.bind h
  intro g r hr
  cases r with
  | ok a => exact hf g a (hr a rfl)
  | error e => exact fun b hb => by cases hb

/-- A call that is allowed, and what it leaves behind for every answer that it understands. -/
theorem keeps_call {c : LeaseCall} {read : LeaseAnswer → Option α} (hallowed : g.Allowed c)
    (h : ∀ reply a, g.Possible c reply → read reply.answer = some a →
      post (g.after c reply) a) : (call c read).Keeps post g := by
  refine ⟨hallowed, fun reply hpossible a ha => ?_⟩
  unfold received at ha
  cases hexc : reply.answer.exception with
  | some e =>
      rw [hexc] at ha
      cases ha
  | none =>
      rw [hexc] at ha
      cases hread : read reply.answer with
      | none =>
          rw [hread] at ha
          cases ha
      | some b =>
          rw [hread] at ha
          have hba : b = a := Except.ok.inj ha
          exact h reply a hpossible (hread.trans (congrArg some hba))

end Rules

/-! ## The parts -/

/-- Nothing has failed, and no lease has been granted. -/
structure LeaseLedger.Open (g : LeaseLedger) : Prop where
  running : g.failed = false
  waiting : g.granted = false

/-- The imports are the same as before, and nothing has failed since. -/
structure SameImport (g₀ g : LeaseLedger) : Prop where
  open' : g.Open
  traffic : g.traffic = g₀.traffic
  accounted : g.accounted = g₀.accounted
  refreshes : g.refreshes = g₀.refreshes

/-- Nothing has been imported since. -/
theorem SameImport.refl {g : LeaseLedger} (h : g.Open) : SameImport g g :=
  ⟨h, rfl, rfl, rfl⟩

/-- The desired state of the Node, as it was last read, is acknowledged. -/
def Confirmed (g : LeaseLedger) (state : WantedState) : Prop :=
  acknowledged state g.seen = true

section Parts

variable {g g₀ : LeaseLedger}

/-- A call without a result that neither imports nor grants. -/
theorem keeps_command {c : LeaseCall} {post : LeaseLedger → Unit → Prop} (hallowed : g.Allowed c)
    (h : ∀ row, g.Possible c ⟨.done, row⟩ → post (g.after c ⟨.done, row⟩) ()) :
    (command c).Keeps post g := by
  apply keeps_call hallowed
  rintro ⟨answer, row⟩ u hpossible hread
  cases answer <;> first | exact h row hpossible | cases hread

/-- A step after which the imports are the same. -/
theorem sameImport_after {c : LeaseCall} {answer : LeaseAnswer} {row : Option DesiredStatus}
    (h : SameImport g₀ g) (hfails : g.fails c answer = false) (hother : g.after c ⟨answer, row⟩ =
      { g.after c ⟨answer, row⟩ with
        traffic := g.traffic, accounted := g.accounted, refreshes := g.refreshes
        granted := g.granted, failed := g.failed || g.fails c answer }) :
    SameImport g₀ (g.after c ⟨answer, row⟩) := by
  rw [hother]
  exact {
    open' := ⟨by simp [hfails, h.open'.running], h.open'.waiting⟩
    traffic := h.traffic
    accounted := h.accounted
    refreshes := h.refreshes }

/-- Collecting counters imports nothing. -/
theorem keeps_collectStats (h : SameImport g₀ g) :
    (command .collectStats).Keeps (fun g _ => SameImport g₀ g) g :=
  keeps_command ⟨h.open'.running, trivial⟩ fun _ _ => sameImport_after h rfl rfl

/-- A tick imports nothing. -/
theorem keeps_tick (h : SameImport g₀ g) :
    (command .tick).Keeps (fun g _ => SameImport g₀ g) g :=
  keeps_command ⟨h.open'.running, trivial⟩ fun _ _ => sameImport_after h rfl rfl

/-- Reading the health imports nothing. -/
theorem keeps_readHealth (h : SameImport g₀ g) :
    readHealth.Keeps (fun g health => health.ok = true → SameImport g₀ g ∧ g.healthy = true) g := by
  apply keeps_call ⟨h.open'.running, trivial⟩
  rintro ⟨answer, row⟩ health _ hread hok
  cases answer <;> try cases hread
  exact ⟨sameImport_after h (by simp [LeaseLedger.fails, hok]) rfl, hok⟩

/-- Reading the allowed clients imports nothing. -/
theorem keeps_readAllowed (h : SameImport g₀ g) (hhealthy : g.healthy = true) :
    readAllowed.Keeps (fun g allowed => SameImport g₀ g ∧ g.healthy = true ∧
      g.allowed = allowed) g := by
  apply keeps_call ⟨h.open'.running, trivial⟩
  rintro ⟨answer, row⟩ allowed _ hread
  cases answer <;> try cases hread
  exact ⟨sameImport_after h rfl rfl, hhealthy, rfl⟩

/-- Reading the managed clients imports nothing. -/
theorem keeps_readManaged (h : SameImport g₀ g) (hhealthy : g.healthy = true) :
    readManaged.Keeps (fun g' rows => rows.any (leaseBlocked g.allowed) = false →
      SameImport g₀ g' ∧ g'.unverified = false) g := by
  apply keeps_call ⟨h.open'.running, trivial⟩
  rintro ⟨answer, row⟩ rows _ hread hfree
  cases answer <;> try cases hread
  have hafter : g.after .managedRows ⟨.rows rows, row⟩ =
      { g with row := row, now := none, failed := false, unverified := false } := by
    simp [LeaseLedger.after, LeaseLedger.fails, LeaseCall.mayWrite, hhealthy, hfree,
      h.open'.running]
  rw [hafter]
  exact ⟨⟨⟨rfl, h.open'.waiting⟩, h.traffic, h.accounted, h.refreshes⟩, rfl⟩

/-- The policy check succeeds only if it has verified the policy. -/
theorem verifyPolicy_safe (h : SameImport g₀ g) :
    verifyPolicy.Keeps (fun g _ => SameImport g₀ g ∧ g.unverified = false) g := by
  apply (keeps_collectStats h).andThen
  intro g _ h
  apply (keeps_tick h).andThen
  intro g _ h
  apply (keeps_readHealth h).andThen
  intro g health hhealth
  by_cases hok : health.ok = true
  · obtain ⟨h, hhealthy⟩ := hhealth hok
    rw [hok]
    apply (keeps_readAllowed h hhealthy).andThen
    rintro g allowed ⟨h, hhealthy, rfl⟩
    apply (keeps_readManaged h hhealthy).andThen
    intro g' rows hrows
    by_cases hfree : rows.any (leaseBlocked g.allowed) = false
    · rw [hfree]
      exact keeps_ok (hrows hfree)
    · rw [Bool.not_eq_false] at hfree
      rw [hfree]
      exact keeps_raise
  · rw [Bool.not_eq_true] at hok
    rw [hok]
    exact keeps_raise

/-- Reading the desired state returns it. -/
theorem keeps_readDesired (h : SameImport g₀ g) :
    readDesired.Keeps (fun g' row => SameImport g₀ g' ∧ g'.unverified = g.unverified ∧
      g'.seen = row) g := by
  apply keeps_call ⟨h.open'.running, trivial⟩
  rintro ⟨answer, row⟩ current hpossible hread
  cases answer <;> try cases hread
  have hcurrent : row = current := hpossible current rfl rfl
  exact ⟨sameImport_after h rfl rfl, rfl, hcurrent⟩

/-- Confirming the state imports nothing. -/
theorem keeps_confirmState {state : WantedState} {current : Option DesiredStatus}
    (h : SameImport g₀ g) (hrow : g.seen = current) :
    (confirmState state current).Keeps (fun g' checked => SameImport g₀ g' ∧
      g'.unverified = g.unverified ∧ Confirmed g' checked.1) g := by
  unfold confirmState
  by_cases hack : acknowledged state current = true
  · have hcontrol : readControl.Keeps (fun g' _ => SameImport g₀ g' ∧
        g'.unverified = g.unverified ∧ g'.seen = g.seen) g := by
      apply keeps_call ⟨h.open'.running, trivial⟩
      rintro ⟨answer, row⟩ revision _ hread
      cases answer <;> try cases hread
      exact ⟨sameImport_after h rfl rfl, rfl, rfl⟩
    rw [hack]
    apply hcontrol.andThen
    rintro g' revision ⟨h', hunverified, hsame⟩
    refine keeps_ok ⟨h', hunverified, ?_⟩
    unfold Confirmed
    rw [hsame, hrow]
    exact hack
  · rw [Bool.not_eq_true] at hack
    rw [hack]
    exact keeps_raise

/-- The state to grant for is current and acknowledged when it is read. -/
theorem verifiedState_safe (h : SameImport g₀ g) :
    verifiedState.Keeps (fun g' checked => SameImport g₀ g' ∧
      g'.unverified = g.unverified ∧ Confirmed g' checked.1) g := by
  have hprovide : provideDesired.Keeps (fun g' _ => SameImport g₀ g' ∧
      g'.unverified = g.unverified) g := by
    apply keeps_call ⟨h.open'.running, trivial⟩
    rintro ⟨answer, row⟩ state _ hread
    cases answer <;> try cases hread
    exact ⟨sameImport_after h rfl rfl, rfl⟩
  apply hprovide.andThen
  rintro g₁ state ⟨h₁, hunverified₁⟩
  apply (keeps_readDesired h₁).andThen
  rintro g₂ current ⟨h₂, hunverified₂, hrow⟩
  rw [← hunverified₁, ← hunverified₂]
  by_cases hack : acknowledged state current = true
  · rw [hack]
    exact keeps_confirmState h₂ hrow
  · rw [Bool.not_eq_true] at hack
    rw [hack]
    have hsync : ∀ {c : LeaseCall} {g₃ : LeaseLedger}, (c = .syncProvider ∨ c = .syncDesired state) →
        SameImport g₀ g₃ → (command c).Keeps (fun g' _ => SameImport g₀ g' ∧
          g'.unverified = g₃.unverified) g₃ := by
      rintro c g₃ (rfl | rfl) h₃
      · exact keeps_command ⟨h₃.open'.running, trivial⟩
          fun _ _ => ⟨sameImport_after h₃ rfl rfl, rfl⟩
      · exact keeps_command ⟨h₃.open'.running, trivial⟩
          fun _ _ => ⟨sameImport_after h₃ rfl rfl, rfl⟩
    apply (hsync (Or.inl rfl) h₂).andThen
    rintro g₃ _ ⟨h₃, hunverified₃⟩
    apply (hsync (Or.inr rfl) h₃).andThen
    rintro g₄ _ ⟨h₄, hunverified₄⟩
    apply (keeps_readDesired h₄).andThen
    rintro g₅ current ⟨h₅, hunverified₅, hrow⟩
    rw [← hunverified₃, ← hunverified₄, ← hunverified₅]
    exact keeps_confirmState h₅ hrow

/-- Reading the clock. -/
theorem keeps_readClock (h : SameImport g₀ g) :
    readClock.Keeps (fun g' t => SameImport g₀ g' ∧ g'.unverified = g.unverified ∧
      g'.seen = g.seen ∧ g'.now = some t) g := by
  apply keeps_call ⟨h.open'.running, trivial⟩
  rintro ⟨answer, row⟩ t _ hread
  cases answer <;> try cases hread
  exact ⟨sameImport_after h rfl rfl, rfl, rfl, rfl⟩

/-- The counters of an import may be accepted. -/
theorem keeps_requireAccounted {traffic : AccountedTraffic} (h : g.Open)
    (htraffic : g.traffic = traffic) :
    (command (.requireAccounted traffic)).Keeps (fun g' _ => g'.Open ∧ g'.traffic = traffic ∧
      g'.accounted = true ∧ g'.refreshes = g.refreshes ∧ g'.unverified = g.unverified) g := by
  apply keeps_command ⟨h.running, trivial⟩
  intro row _
  have hafter : g.after (.requireAccounted traffic) ⟨.done, row⟩ =
      { g with row := row, now := none, failed := false, accounted := true } := by
    simp [LeaseLedger.after, LeaseLedger.fails, LeaseCall.mayWrite, h.running, htraffic]
  rw [hafter]
  exact ⟨⟨rfl, h.waiting⟩, htraffic, rfl, rfl, rfl⟩

/-! ## The loop -/

/-- The next grant of a round may be sent once the challenge is found to be young. -/
structure Ready (g : LeaseLedger) (traffic : AccountedTraffic) (state : WantedState) : Prop where
  open' : g.Open
  imported : g.traffic = traffic
  challenge : traffic.challenge.isSome
  requested : traffic.requestedAt.isSome
  accounted : g.accounted = true
  verified : g.unverified = false
  confirmed : Confirmed g state

/-- A state that is confirmed was the current and acknowledged one. -/
theorem Confirmed.current {state : WantedState} (h : Confirmed g state) :
    ∃ row, g.seen = some row ∧ row.Settled state.revision state.hash := by
  unfold Confirmed at h
  cases hseen : g.seen with
  | none =>
      rw [hseen] at h
      cases h
  | some row =>
      rw [hseen] at h
      simp only [acknowledged, Bool.and_eq_true, decide_eq_true_eq] at h
      exact ⟨row, rfl, h.1.1.1.2, h.1.1.2, h.1.2, h.2, h.1.1.1.1.2⟩

/-- The age of a challenge is measured with the clock as it was read last. -/
theorem challengeHubAge_safe {traffic : AccountedTraffic} {state : WantedState}
    (h : Ready g traffic state) :
    (challengeHubAge traffic).Keeps (fun g' age => Ready g' traffic state ∧
      g'.refreshes = g.refreshes ∧ ∃ now issued, g'.now = some now ∧
        traffic.requestedAt = some issued ∧ age = some (now - issued)) g := by
  unfold challengeHubAge
  obtain ⟨issued, hissued⟩ := Option.isSome_iff_exists.mp h.requested
  rw [hissued]
  apply (keeps_readClock (SameImport.refl h.open')).andThen
  rintro g' now ⟨hsame, hunverified, hrow, hnow⟩
  by_cases hneg : now - issued < 0
  · rw [if_pos hneg]
    exact keeps_raise
  · rw [if_neg hneg]
    have hconfirmed : Confirmed g' state := by
      unfold Confirmed
      rw [hrow]
      exact h.confirmed
    have hready : Ready g' traffic state := {
      open' := hsame.open'
      imported := hsame.traffic.trans h.imported
      challenge := h.challenge
      requested := h.requested
      accounted := hsame.accounted.trans h.accounted
      verified := hunverified.trans h.verified
      confirmed := hconfirmed }
    exact keeps_ok ⟨hready, hsame.refreshes, now, issued, hnow, rfl, rfl⟩

/-- The lease was granted, and nothing has failed. -/
def Leased (g : LeaseLedger) : Prop :=
  g.granted = true ∧ g.failed = false

/-- A grant is sent over fully accounted bytes; it grants the lease, or its challenge is
rejected. -/
theorem sendGrant_safe {traffic : AccountedTraffic} {state : WantedState} {revision : ℤ}
    (h : Ready g traffic state) {now issued : ℚ} (hnow : g.now = some now)
    (hissued : traffic.requestedAt = some issued) (hyoung : now - issued ≤ 18) :
    (sendGrant traffic state revision).Keeps (fun g' sent =>
      match sent with
      | some () => Leased g'
      | none => Ready g' traffic state ∧ g'.refreshes = g.refreshes) g := by
  obtain ⟨challenge, hchallenge⟩ := Option.isSome_iff_exists.mp h.challenge
  have haccounted : GrantAccounted g
      ⟨traffic.challenge.getD "", state.revision, state.hash, revision⟩ := {
    challenge := by rw [h.imported, hchallenge, Option.getD_some]
    accounted := h.accounted
    verified := h.verified
    current := h.confirmed.current
    young := ⟨now, issued, hnow, by rw [h.imported, hissued], hyoung⟩ }
  refine ⟨⟨h.open'.running, h.open'.waiting, haccounted⟩, ?_⟩
  rintro ⟨answer, row⟩ _
  cases answer with
  | raised e =>
      by_cases hstale : e.staleChallenge = true
      · simp only [hstale, if_true]
        have hready : Ready (g.after (.grant ⟨traffic.challenge.getD "", state.revision,
            state.hash, revision⟩) ⟨.raised e, row⟩) traffic state := {
          open' := ⟨by simp [LeaseLedger.after, LeaseLedger.fails, hstale,
            h.open'.running], h.open'.waiting⟩
          imported := h.imported
          challenge := h.challenge
          requested := h.requested
          accounted := h.accounted
          verified := h.verified
          confirmed := h.confirmed }
        intro sent hsent
        cases hsent
        exact ⟨hready, rfl⟩
      · rw [Bool.not_eq_true] at hstale
        simp only [hstale]
        exact fun b hb => by cases hb
  | lease valid =>
      cases valid with
      | false => exact keeps_raise
      | true =>
          rintro sent hsent
          cases hsent
          exact ⟨rfl, by simp [leaseMonitor, LeaseLedger.after, LeaseLedger.fails,
            h.open'.running]⟩
  | _ => exact keeps_raise

/-- A round sends a grant only over what it has checked, and goes on with the imports as they
are. -/
theorem grantRound_safe {traffic : AccountedTraffic} {state : WantedState} {revision : ℤ}
    {again : Bool → LeaseStep Unit} (h : Ready g traffic state)
    (hagain : ∀ stale g', Ready g' traffic state → g'.refreshes = g.refreshes →
      (again stale).Keeps (fun g _ => Leased g) g') :
    (grantRound traffic state revision again).Keeps (fun g _ => Leased g) g := by
  apply (challengeHubAge_safe h).andThen
  rintro g₁ age ⟨h₁, hrefreshes, now, issued, hnow, hissued, rfl⟩
  have hnext : ∀ g₂ (sent : Option Unit), (match sent with
      | some () => Leased g₂
      | none => Ready g₂ traffic state ∧ g₂.refreshes = g₁.refreshes) →
      LeaseStep.Keeps (match sent with
        | some () => .done (.ok ())
        | none => again (decide (challengeAckMaxAge < now - issued))) (fun g _ => Leased g) g₂ := by
    intro g₂ sent hsent
    cases sent with
    | some u => exact keeps_ok hsent
    | none => exact hagain _ g₂ hsent.1 (hsent.2.trans hrefreshes)
  by_cases hstale : challengeAckMaxAge < now - issued
  · simp only [Option.any_some, hstale, decide_true, if_true]
    simp only [hstale, decide_true] at hnext
    exact hnext g₁ none ⟨h₁, rfl⟩
  · simp only [Option.any_some, hstale, decide_false]
    simp only [hstale, decide_false] at hnext
    have hyoung : now - issued ≤ 18 := not_lt.mp hstale
    exact (sendGrant_safe h₁ hnow hissued hyoung).andThen hnext

/-- Fetching the traffic again. -/
theorem keeps_fetchTraffic (h : g.Open) (hleft : g.refreshes < maxChallengeRefreshes) :
    fetchTraffic.Keeps (fun g' doc => doc.1 = true → g'.Open ∧
      g'.refreshes = g.refreshes + 1 ∧ g'.unverified = g.unverified) g := by
  have hallowed : g.Allowed .fetchTraffic := ⟨h.running, h.waiting, hleft⟩
  apply keeps_call hallowed
  rintro ⟨answer, row⟩ doc _ hread hvalid
  cases answer with
  | document valid challenge =>
      cases hread
      have hrunning : (g.after .fetchTraffic ⟨.document valid challenge, row⟩).failed = false := by
        have htrue : valid = true := hvalid
        simp [LeaseLedger.after, LeaseLedger.fails, h.running, htrue]
      exact ⟨⟨hrunning, h.waiting⟩, rfl, rfl⟩
  | _ => cases hread

/-- Importing traffic again. -/
theorem syncTraffic_safe (h : g.Open) (hleft : g.refreshes < maxChallengeRefreshes) :
    syncTraffic.Keeps (fun g' traffic => g'.Open ∧ g'.traffic = traffic ∧
      traffic.requestedAt.isSome ∧ g'.refreshes = g.refreshes + 1 ∧
      g'.unverified = (g.unverified || decide (traffic.chargedBytes ≠ 0))) g := by
  apply (keeps_readClock (SameImport.refl h)).andThen
  rintro g₁ requestedAt ⟨h₁, hunverified₁, _, _⟩
  rw [← hunverified₁]
  apply (keeps_fetchTraffic h₁.open' (h₁.refreshes ▸ hleft)).andThen
  intro g₂ doc hdoc
  cases hvalid : doc.1 with
  | false => exact keeps_raise
  | true =>
      obtain ⟨h₂, hrefreshes₂, hunverified₂⟩ := hdoc hvalid
      rw [← hunverified₂]
      apply keeps_call ⟨h₂.running, trivial⟩
      rintro ⟨answer, row⟩ traffic _ hread
      cases answer with
      | imported charged ignored restored =>
          cases hread
          have hrunning : (g₂.after (.applySnapshot doc.2 requestedAt)
              ⟨.imported charged ignored restored, row⟩).failed = false := by
            simp [LeaseLedger.after, LeaseLedger.fails, h₂.running]
          exact ⟨⟨hrunning, h₂.waiting⟩, rfl, rfl,
            hrefreshes₂.trans (congrArg (· + 1) h₁.refreshes), rfl⟩
      | _ => cases hread

/-- After a refresh the next grant may be sent. -/
theorem refresh_safe (h : g.Open) (hverified : g.unverified = false)
    (hleft : g.refreshes < maxChallengeRefreshes) :
    refresh.Keeps (fun g' next => Ready g' next.1 next.2.1 ∧
      g'.refreshes = g.refreshes + 1) g := by
  apply (syncTraffic_safe h hleft).andThen
  rintro g₁ traffic ⟨h₁, htraffic₁, hrequested, hrefreshes₁, hunverified₁⟩
  rw [hverified, Bool.false_or] at hunverified₁
  cases hchallenge : traffic.challenge with
  | none => exact keeps_raise
  | some challenge =>
      apply (keeps_requireAccounted h₁ htraffic₁).andThen
      rintro g₂ _ ⟨h₂, htraffic₂, haccounted₂, hrefreshes₂, hunverified₂⟩
      have hpolicy : LeaseStep.Keeps
          (if traffic.chargedBytes ≠ 0 then verifyPolicy else .done (.ok ()))
          (fun g' _ => SameImport g₂ g' ∧ g'.unverified = false) g₂ := by
        by_cases hcharged : traffic.chargedBytes ≠ 0
        · rw [if_pos hcharged]
          exact verifyPolicy_safe (SameImport.refl h₂)
        · rw [if_neg hcharged]
          refine keeps_ok ⟨SameImport.refl h₂, ?_⟩
          rw [hunverified₂, hunverified₁, decide_eq_false hcharged]
      apply hpolicy.andThen
      rintro g₃ _ ⟨h₃, hunverified₃⟩
      apply (verifiedState_safe h₃).andThen
      rintro g₄ checked ⟨h₄, hunverified₄, hconfirmed⟩
      have hready : Ready g₄ traffic checked.1 := {
        open' := h₄.open'
        imported := h₄.traffic.trans htraffic₂
        challenge := Option.isSome_iff_exists.mpr ⟨challenge, hchallenge⟩
        requested := hrequested
        accounted := h₄.accounted.trans haccounted₂
        verified := hunverified₄.trans hunverified₃
        confirmed := hconfirmed }
      exact keeps_ok ⟨hready, h₄.refreshes.trans (hrefreshes₂.trans hrefreshes₁)⟩

/-- A round of the loop sends a grant only over what it has checked since the last import, and
the loop imports at most as often as it has refreshes left. -/
theorem grantLoop_safe {left : ℕ} {traffic : AccountedTraffic} {state : WantedState}
    {revision : ℤ} (h : Ready g traffic state) (hleft : g.refreshes + left ≤ maxChallengeRefreshes) :
    (grantLoop left traffic state revision).Keeps (fun g _ => Leased g) g := by
  induction left generalizing g traffic state revision with
  | zero => exact grantRound_safe h fun stale g' _ _ => keeps_raise
  | succ left ih =>
      apply grantRound_safe h
      intro stale g' h' hrefreshes
      have hless : g'.refreshes < maxChallengeRefreshes := by omega
      apply (refresh_safe h'.open' h'.verified hless).andThen
      rintro g'' next ⟨hnext, hcount⟩
      exact ih hnext (by omega)

end Parts

/-! ## Runs -/

/-- A renewal keeps to the rules of its monitor. -/
theorem renewAccountingLease_safe {traffic : AccountedTraffic} (row : Option DesiredStatus)
    (hrequested : traffic.requestedAt.isSome) :
    (renewAccountingLease traffic).Safe leaseMonitor LeaseLedger.Ends
      (LeaseLedger.start row traffic) := by
  have hends : ∀ (g : LeaseLedger) (message : String), g.Ends (.error message) :=
    fun g message => ⟨fun h => (by cases h), fun _ => ⟨message, rfl⟩⟩
  unfold renewAccountingLease
  cases hchallenge : traffic.challenge with
  | none => exact ⟨fun h => (by cases h), fun h => (by cases h)⟩
  | some challenge =>
      have hstart : (LeaseLedger.start row traffic).Open := ⟨rfl, rfl⟩
      apply Proc.Safe.bind (keeps_requireAccounted hstart rfl)
      intro g r hr
      cases r with
      | error e => exact hends g _
      | ok u =>
          obtain ⟨h, htraffic, haccounted, hrefreshes, _⟩ := hr u rfl
          have hbody : LeaseStep.Keeps (andThen (command .enter) fun _ =>
              andThen verifyPolicy fun _ =>
              andThen verifiedState fun checked =>
              andThen (grantLoop maxChallengeRefreshes traffic checked.1 checked.2) fun _ =>
              command .leave) (fun g _ => Leased g) g := by
            have henter : (command .enter).Keeps (fun g' _ => SameImport g g') g :=
              keeps_command ⟨h.running, trivial⟩ fun _ _ =>
                sameImport_after (SameImport.refl h) rfl rfl
            apply henter.andThen
            intro g₁ _ h₁
            apply (verifyPolicy_safe h₁).andThen
            rintro g₂ _ ⟨h₂, hunverified₂⟩
            apply (verifiedState_safe h₂).andThen
            rintro g₃ checked ⟨h₃, hunverified₃, hconfirmed⟩
            have hready : Ready g₃ traffic checked.1 := {
              open' := h₃.open'
              imported := h₃.traffic.trans htraffic
              challenge := Option.isSome_iff_exists.mpr ⟨challenge, hchallenge⟩
              requested := hrequested
              accounted := h₃.accounted.trans haccounted
              verified := hunverified₃.trans hunverified₂
              confirmed := hconfirmed }
            have hcount : g₃.refreshes = 0 := h₃.refreshes.trans hrefreshes
            apply (grantLoop_safe hready (by rw [hcount, Nat.zero_add])).andThen
            intro g₄ _ h₄
            exact keeps_command ⟨h₄.2, trivial⟩ fun row _ =>
              ⟨h₄.1, by simp [LeaseLedger.after, LeaseLedger.fails, h₄.2]⟩
          apply Proc.Safe.bind hbody
          intro g' r' hr'
          cases r' with
          | error e => exact hends g' _
          | ok u' =>
              have hleased := hr' u' rfl
              refine ⟨fun _ => hleased, fun hfailed => ?_⟩
              rw [hleased.2] at hfailed
              cases hfailed

/-- An environment in which every call succeeds at once; from the end of some call on, the desired
state is another one. -/
def healthyHub (changes : LeaseCall → Option DesiredStatus) (g : LeaseLedger) (c : LeaseCall) :
    LeaseReply where
  answer :=
    match c with
    | .health => .health ⟨"", "", true⟩
    | .allowedClients => .clients ["anna"]
    | .managedRows => .rows [⟨"anna", "applied", "none", ""⟩]
    | .desiredProvider => .wanted ⟨4, "h4"⟩
    | .desiredState => .status g.row
    | .commandStatus => .control 7
    | .clock => .time 110
    | .fetchTraffic => .document true (some "c2")
    | .applySnapshot _ _ => .imported 0 0 0
    | .grant _ => .lease true
    | _ => .done
  row := if c = .desiredState then g.row else (changes c).or g.row

/-- The answers of a healthy Hub are possible. -/
theorem healthyHub_possible (changes : LeaseCall → Option DesiredStatus) (g : LeaseLedger)
    (c : LeaseCall) : g.Possible c (healthyHub changes g c) := by
  rintro row rfl hrow
  exact LeaseAnswer.status.inj hrow

/-- A renewal that is about to send its first grant. -/
def healthyRenewal (changes : LeaseCall → Option DesiredStatus) :
    Proc LeaseCall LeaseReply Renewed × LeaseLedger :=
  Proc.play leaseMonitor (healthyHub changes) 11
    (renewAccountingLease ⟨some "c1", some 100, 0, 0, 0⟩)
    (LeaseLedger.start (some ⟨4, "h4", 4, "h4", ""⟩) ⟨some "c1", some 100, 0, 0, 0⟩)

/-- Another desired state is stored while the control is read. -/
def editedMeanwhile (c : LeaseCall) : Option DesiredStatus :=
  if c = .commandStatus then some ⟨5, "h5", 4, "h4", ""⟩ else none

end Nodes
end DarkXray
