import DarkXray.Library.Runs
import DarkXray.Library.Tables
import Mathlib.Data.Rat.Defs

/-!
# Transport failures of a Node

Every request to a Node ends in {lit}`_request_ok` or {lit}`_request_failed`.  The row of the
Node keeps the text of the last failure and the failures since the last success, and from these
two fields alone {lit}`_transport_stable` tells whether the Node is reachable.

The texts are Python's: sequences of code points, with lone surrogates among them.  SQLite
stores text as UTF-8, so that a parameter with a surrogate raises and the transaction is
rolled back.  Neither function changes an installation, so that the fence of the transaction
passes throughout a sequence of these calls.

Main results:

- Theorem {lit}`stable_iff`: a row that tells of a list of failures is unstable exactly when
  one of them was no transient error or there were three.
- Theorem {lit}`tells_run`: on every run of storable texts the row tells of the failures
  since the last success.
- Theorem {lit}`remembers_of_storable`: what each call of such a run does.
-/

namespace DarkXray
namespace Nodes

open Library

/-- A Python string: its code points, surrogates included. -/
abbrev CodePoints : Type := List (Fin 0x110000)

/-- The code points of a text. -/
def codePoints (text : String) : CodePoints :=
  text.toList.map fun c => Fin.ofNat 0x110000 c.toNat

/-- The text as UTF-8: it has no encoding when there is a surrogate in it. -/
def encodes (text : CodePoints) : Bool :=
  text.all fun c => !(0xD800 ≤ c.val && c.val ≤ 0xDFFF)

/-! ## The two fields -/

/-- The texts of {lit}`_transient_transport_error`. -/
def transientErrors : List CodePoints :=
  ["Node hostname does not resolve",
    "Node connection failed: Timeout",
    "Node connection failed: TimeoutError",
    "Node connection failed: ConnectionRefusedError",
    "Node connection failed: ConnectionResetError",
    "Node connection failed: ConnectionAbortedError",
    "Node connection failed: RemoteDisconnected",
    "Node connection failed: BrokenPipeError",
    "Node connection failed: IncompleteRead",
    "Node connection failed: OSError"].map codePoints

/-- {lit}`_transient_transport_error`. -/
def transientTransportError (error : CodePoints) : Bool :=
  decide (error ∈ transientErrors)

/-- {lit}`_transport_stable`. -/
def transportStable (lastError : CodePoints) (failureCount : ℕ) : Bool :=
  lastError.isEmpty || (transientTransportError lastError && decide (failureCount < 3))

/-- The columns of {lit}`remote_nodes` that requests read and write. -/
structure NodeRow where
  lastSeen : ℕ
  lastLatencyMs : ℤ
  lastError : CodePoints
  updatedAt : ℕ
  failureCount : ℕ
  recoveryCount : ℕ
  lastRecoveredAt : ℕ
  lastOfflineAt : ℕ
deriving DecidableEq

/-- {lit}`_transport_stable` of a row. -/
def NodeRow.stable (r : NodeRow) : Bool :=
  transportStable r.lastError r.failureCount

/-- A row of {lit}`remote_node_alerts`. -/
structure AlertRow where
  severity : String
  firstSeen : ℕ
  lastSeen : ℕ
  value : Option ℚ
  threshold : Option ℚ
  active : Bool

/-- The tables that requests write: the Nodes, and the alerts of each Node by their codes. -/
structure Monitoring where
  nodes : Table String NodeRow
  alerts : Table (String × String) AlertRow

/-! ## Requests -/

/-- The row of an active alert without a metric; one that was active keeps its first time. -/
def AlertRow.raise (severity : String) (now : ℕ) (old : Option AlertRow) : AlertRow where
  severity := severity
  firstSeen := (old.filter AlertRow.active).elim now AlertRow.firstSeen
  lastSeen := now
  value := none
  threshold := none
  active := true

/-- {lit}`_sync_active_alerts` for alerts without a metric, each a severity and a code: they
become the active alerts of the Node. -/
def syncActiveAlerts (m : Monitoring) (nodeId : String) (found : List (String × String))
    (now : ℕ) : Monitoring :=
  let raised := found.foldl (fun t alert =>
    t.upsert (nodeId, alert.2) (AlertRow.raise alert.1 now none)
      fun old => AlertRow.raise alert.1 now (some old)) m.alerts
  { m with
    alerts := raised.mapRows fun key row =>
      if key.1 = nodeId ∧ key.2 ∉ found.map Prod.snd then { row with active := false } else row }

/-- {lit}`_request_ok`. -/
def requestOk (m : Monitoring) (nodeId : String) (latencyMs : ℤ) (now : ℕ) : Monitoring :=
  let recovered := (m.nodes.get? nodeId).elim false fun old =>
    !old.lastError.isEmpty && !old.stable
  { m with
    nodes := m.nodes.update nodeId fun old =>
      { old with
        lastSeen := now
        lastLatencyMs := max 1 latencyMs
        lastError := []
        updatedAt := now
        failureCount := 0
        recoveryCount := old.recoveryCount + if recovered then 1 else 0
        lastRecoveredAt := if recovered then now else old.lastRecoveredAt } }

/-- The text that a failure stores: a transient one does not replace another stored one. -/
def storedError (old : Option NodeRow) (error : CodePoints) : CodePoints :=
  old.elim (error.take 300) fun row =>
    if !row.lastError.isEmpty && !transientTransportError row.lastError
        && transientTransportError (error.take 300)
    then row.lastError else error.take 300

/-- {lit}`_request_failed`: {lit}`none` when SQLite refuses the text. -/
def requestFailed (m : Monitoring) (nodeId : String) (error : CodePoints) (now : ℕ) :
    Option Monitoring :=
  let old := m.nodes.get? nodeId
  let failures := old.elim 1 fun row => row.failureCount + 1
  let stored := storedError old error
  let blocked := !transportStable stored failures
  let previouslyBlocked := old.elim false fun row => !row.stable
  let first := blocked && !previouslyBlocked
  if encodes (stored.take 300) then
    let written : Monitoring :=
      { m with
        nodes := m.nodes.update nodeId fun row =>
          { row with
            lastError := stored.take 300
            updatedAt := now
            failureCount := row.failureCount + 1
            lastOfflineAt := if first then now else row.lastOfflineAt } }
    -- A single failed HTTP request is not an offline Node.
    some (if blocked then
      syncActiveAlerts written nodeId
        [("critical", "telemetry_offline"), ("critical", "node_error")] now
    else written)
  else none

/-- One call on a Node. -/
inductive Request
  | ok (latencyMs : ℤ) (now : ℕ)
  | failed (error : CodePoints) (now : ℕ)

/-- A call on a Node; one that raises leaves the tables as they are. -/
def Request.perform (nodeId : String) (m : Monitoring) : Request → Monitoring
  | .ok latencyMs now => requestOk m nodeId latencyMs now
  | .failed error now => (requestFailed m nodeId error now).getD m

/-- Calls on one Node, one after the other. -/
def Requested (nodeId : String) (m : Monitoring) (c : Request) (m' : Monitoring) : Prop :=
  m' = c.perform nodeId m

/-! ## What the history says -/

/-- The failures since the last success, with the one of the next call. -/
def Request.since (failures : List CodePoints) : Request → List CodePoints
  | .ok _ _ => []
  | .failed error _ => failures ++ [error]

/-- The texts of the failures since the last success. -/
def failuresSince (calls : List Request) : List CodePoints :=
  calls.foldl Request.since []

/-- Failures that make a Node unreachable: one that is no known transient error, or three. -/
def Severe (failures : List CodePoints) : Prop :=
  (∃ error ∈ failures, transientTransportError error = false) ∨ 3 ≤ failures.length

/-- What the call {lit}`c` after the calls {lit}`calls` must make of the row of the Node. -/
structure Remembers (calls : List Request) (before : NodeRow) (c : Request) (after : NodeRow) :
    Prop where
  unstable : after.stable = false ↔ Severe (failuresSince (calls ++ [c]))
  fenced : ∀ error now, c = .failed error now → transientTransportError error = true →
    before.lastError ≠ [] → transientTransportError before.lastError = false →
    after.lastError = before.lastError
  recovered : ∀ latency now, c = .ok latency now →
    after.recoveryCount = before.recoveryCount + if before.stable then 0 else 1
  recoveries_kept : ∀ error now, c = .failed error now →
    after.recoveryCount = before.recoveryCount
  offline : ∀ error now, c = .failed error now →
    after.lastOfflineAt =
      if before.stable = true ∧ after.stable = false then now else before.lastOfflineAt
  offline_kept : ∀ latency now, c = .ok latency now → after.lastOfflineAt = before.lastOfflineAt

/-- The row of a Node without a failure since its last success. -/
def NodeRow.Quiet (r : NodeRow) : Prop :=
  r.lastError = [] ∧ r.failureCount = 0

/-- The text of a failure is not empty and SQLite can store what is kept of it. -/
def Request.Storable (_ : Monitoring) : Request → Prop
  | .ok _ _ => True
  | .failed error _ => error ≠ [] ∧ encodes (error.take 300) = true

/-- The row tells of the failures since the last success. -/
structure NodeRow.Tells (r : NodeRow) (failures : List CodePoints) : Prop where
  count : r.failureCount = failures.length
  none_iff : r.lastError = [] ↔ failures = []
  severe_iff : r.lastError ≠ [] ∧ transientTransportError r.lastError = false ↔
    ∃ error ∈ failures, transientTransportError error = false
  length_le : r.lastError.length ≤ 300
  encoded : encodes r.lastError = true

/-! ## Texts -/

theorem length_of_transient {error : CodePoints} (h : transientTransportError error = true) :
    error.length < 300 := by
  have hall : ∀ e ∈ transientErrors, e.length < 300 := by decide +kernel
  exact hall error (of_decide_eq_true h)

/-- The empty text is no known error. -/
@[simp]
theorem transient_nil : transientTransportError [] = false := by
  decide +kernel

/-- What is kept of a text is a transient error exactly when the text is. -/
@[simp]
theorem transient_take (error : CodePoints) :
    transientTransportError (error.take 300) = transientTransportError error := by
  rw [Bool.eq_iff_iff]
  constructor
  · intro h
    have hlen := length_of_transient h
    rw [List.length_take] at hlen
    rwa [List.take_of_length_le (by omega)] at h
  · intro h
    rwa [List.take_of_length_le (length_of_transient h).le]

/-! ## One call -/

section Calls

variable {r : NodeRow} {failures : List CodePoints}

/-- A row that tells of failures is unstable exactly when they are severe. -/
theorem stable_iff (h : r.Tells failures) : r.stable = false ↔ Severe failures := by
  unfold Severe NodeRow.stable transportStable
  rw [← h.severe_iff, ← h.count]
  have hcount : 3 ≤ r.failureCount → r.lastError ≠ [] := by
    intro hle hnil
    have hlen : failures.length = 0 := by simp [h.none_iff.mp hnil]
    rw [h.count] at hle
    omega
  grind

theorem tells_nil (h : r.Quiet) : r.Tells [] where
  count := h.2
  none_iff := by simp [h.1]
  severe_iff := by simp [h.1]
  length_le := by simp [h.1]
  encoded := by simp [h.1, encodes]

/-- The fence: a transient error does not replace a stored one of another kind. -/
theorem storedError_fenced {error : CodePoints} (hnil : r.lastError ≠ [])
    (hstored : transientTransportError r.lastError = false)
    (herror : transientTransportError error = true) :
    storedError (some r) error = r.lastError := by
  simp [storedError, hnil, hstored, herror]

/-- Otherwise a failure stores its own text. -/
theorem storedError_own {error : CodePoints}
    (h : ¬ (r.lastError ≠ [] ∧ transientTransportError r.lastError = false ∧
      transientTransportError error = true)) :
    storedError (some r) error = error.take 300 := by
  simp only [storedError, Option.elim_some, transient_take]
  rw [if_neg]
  simpa [and_assoc] using h

/-- The row that a failure leaves. -/
def NodeRow.fail (r : NodeRow) (error : CodePoints) (now : ℕ) : NodeRow :=
  let stored := storedError (some r) error
  { r with
    lastError := stored
    updatedAt := now
    failureCount := r.failureCount + 1
    lastOfflineAt :=
      if r.stable = true ∧ transportStable stored (r.failureCount + 1) = false then now
      else r.lastOfflineAt }

/-- What a failure stores is short and has an encoding. -/
theorem storedError_storable {error : CodePoints} (h : r.Tells failures)
    (henc : encodes (error.take 300) = true) :
    (storedError (some r) error).length ≤ 300 ∧ encodes (storedError (some r) error) = true := by
  by_cases hfence : r.lastError ≠ [] ∧ transientTransportError r.lastError = false ∧
      transientTransportError error = true
  · rw [storedError_fenced hfence.1 hfence.2.1 hfence.2.2]
    exact ⟨h.length_le, h.encoded⟩
  · rw [storedError_own hfence]
    exact ⟨List.length_take_le _ _, henc⟩

/-- After a failure the row tells of it as well. -/
theorem tells_fail {error : CodePoints} (h : r.Tells failures) (hne : error ≠ [])
    (henc : encodes (error.take 300) = true) (now : ℕ) :
    (r.fail error now).Tells (failures ++ [error]) := by
  obtain ⟨hlen, hstored⟩ := storedError_storable h henc
  have hmem : (∃ e ∈ failures ++ [error], transientTransportError e = false) ↔
      (∃ e ∈ failures, transientTransportError e = false) ∨
        transientTransportError error = false := by
    simp [or_and_right, exists_or]
  refine ⟨?_, ?_, ?_, hlen, hstored⟩
  · simp [NodeRow.fail, h.count]
  · by_cases hfence : r.lastError ≠ [] ∧ transientTransportError r.lastError = false ∧
        transientTransportError error = true
    · simp [NodeRow.fail, storedError_fenced hfence.1 hfence.2.1 hfence.2.2, hfence.1]
    · simp [NodeRow.fail, storedError_own hfence, hne]
  · rw [hmem, ← h.severe_iff]
    by_cases hfence : r.lastError ≠ [] ∧ transientTransportError r.lastError = false ∧
        transientTransportError error = true
    · simp only [NodeRow.fail, storedError_fenced hfence.1 hfence.2.1 hfence.2.2]
      simp [hfence]
    · have hkept : (r.fail error now).lastError = error.take 300 := storedError_own hfence
      rw [hkept, transient_take]
      -- without the fence a stored error of another kind meets another such error
      cases herror : transientTransportError error with
      | false => simp [hne]
      | true => grind

/-- Alerts do not touch the row of the Node. -/
@[simp]
theorem nodes_syncActiveAlerts (m : Monitoring) (nodeId : String) (found : List (String × String))
    (now : ℕ) : (syncActiveAlerts m nodeId found now).nodes = m.nodes :=
  rfl

/-- A failure with a storable text leaves exactly this row. -/
theorem requestFailed_row {m : Monitoring} {nodeId : String} (hrow : m.nodes.get? nodeId = some r)
    (h : r.Tells failures) {error : CodePoints} (henc : encodes (error.take 300) = true)
    (now : ℕ) :
    ((requestFailed m nodeId error now).getD m).nodes.get? nodeId = some (r.fail error now) := by
  obtain ⟨hlen, hstored⟩ := storedError_storable h henc
  have htake := List.take_of_length_le hlen
  simp only [requestFailed, hrow, htake, hstored, Option.elim_some, if_true, Option.getD_some]
  cases hblocked : transportStable (storedError (some r) error) (r.failureCount + 1) <;>
    simp [NodeRow.fail, hrow, hblocked]

/-- The row that a success leaves. -/
def NodeRow.succeed (r : NodeRow) (latencyMs : ℤ) (now : ℕ) : NodeRow :=
  { r with
    lastSeen := now
    lastLatencyMs := max 1 latencyMs
    lastError := []
    updatedAt := now
    failureCount := 0
    recoveryCount := r.recoveryCount + if r.stable then 0 else 1
    lastRecoveredAt := if r.stable then r.lastRecoveredAt else now }

/-- A success leaves exactly this row: an unstable row always has an error. -/
theorem requestOk_row {m : Monitoring} {nodeId : String} (hrow : m.nodes.get? nodeId = some r)
    (latencyMs : ℤ) (now : ℕ) :
    (requestOk m nodeId latencyMs now).nodes.get? nodeId = some (r.succeed latencyMs now) := by
  have hrecovered : (!r.lastError.isEmpty && !r.stable) = !r.stable := by
    unfold NodeRow.stable transportStable
    cases r.lastError.isEmpty <;> simp
  simp only [requestOk, hrow, Option.elim_some, hrecovered, Table.get?_update, if_true,
    Option.map_some]
  cases hstable : r.stable <;> simp [NodeRow.succeed, hstable]

end Calls

/-! ## Runs -/

section Histories

variable {nodeId : String} {start before after : Monitoring} {calls : List Request} {c : Request}

/-- The failures of a longer history. -/
theorem failuresSince_append (calls : List Request) (c : Request) :
    failuresSince (calls ++ [c]) = c.since (failuresSince calls) := by
  simp [failuresSince]

/-- One call: the row tells of the failures since the last success before it and after it. -/
theorem tells_step {r : NodeRow} {failures : List CodePoints}
    (hrow : before.nodes.get? nodeId = some r) (h : r.Tells failures)
    (hstep : Guarded (Requested nodeId) Request.Storable before c after) :
    ∃ r', after.nodes.get? nodeId = some r' ∧ r'.Tells (c.since failures) := by
  obtain ⟨hdoes, hok⟩ := hstep
  subst hdoes
  cases c with
  | ok latency now =>
      refine ⟨_, requestOk_row hrow latency now, ?_⟩
      exact tells_nil ⟨rfl, rfl⟩
  | failed error now =>
      refine ⟨_, requestFailed_row hrow h hok.2 now, ?_⟩
      exact tells_fail h hok.1 hok.2 now

/-- On every run of storable texts the row tells of the failures since the last success. -/
theorem tells_run {r : NodeRow} (hrow : start.nodes.get? nodeId = some r) (hquiet : r.Quiet)
    (hrun : Run (Guarded (Requested nodeId) Request.Storable) start calls before) :
    ∃ r', before.nodes.get? nodeId = some r' ∧ r'.Tells (failuresSince calls) := by
  induction hrun with
  | nil => exact ⟨r, hrow, tells_nil hquiet⟩
  | snoc _ hlast ih =>
      obtain ⟨r', hrow', htells⟩ := ih
      rw [failuresSince_append]
      exact tells_step hrow' htells hlast

/-- Hysteresis over the whole history: in every run whose texts are neither empty nor refused by
SQLite, each call leaves the Node unstable exactly when the failures since the last success
are severe, keeps an error that is not transient against a transient one, counts a recovery at
exactly the success that follows an unstable row, and dates the loss at exactly the failure
that ends a stable one. -/
theorem remembers_of_storable {r : NodeRow} (hrow : start.nodes.get? nodeId = some r)
    (hquiet : r.Quiet)
    (hrun : Run (Guarded (Requested nodeId) Request.Storable) start calls before)
    (hlast : Guarded (Requested nodeId) Request.Storable before c after) :
    ∃ b a, before.nodes.get? nodeId = some b ∧ after.nodes.get? nodeId = some a ∧
      Remembers calls b c a := by
  obtain ⟨b, hb, htells⟩ := tells_run hrow hquiet hrun
  obtain ⟨a, ha, hafter⟩ := tells_step hb htells hlast
  refine ⟨b, a, hb, ha, ?_⟩
  have hunstable : a.stable = false ↔ Severe (failuresSince (calls ++ [c])) := by
    rw [failuresSince_append]
    exact stable_iff hafter
  obtain ⟨hdoes, hok⟩ := hlast
  cases c with
  | ok latency now =>
      have hrowAfter := requestOk_row hb latency now
      have hsame : a = b.succeed latency now := by
        rw [hdoes] at ha
        exact Option.some.inj (ha.symm.trans hrowAfter)
      refine ⟨hunstable, ?_, ?_, ?_, ?_, ?_⟩ <;> simp [hsame, NodeRow.succeed]
  | failed error now =>
      have hrowAfter := requestFailed_row hb htells hok.2 now
      have hsame : a = b.fail error now := by
        rw [hdoes] at ha
        exact Option.some.inj (ha.symm.trans hrowAfter)
      refine ⟨hunstable, ?_, by simp, ?_, ?_, by simp⟩
      · intro e n hcall htransient hstored hother
        cases hcall
        rw [hsame]
        exact storedError_fenced hstored hother htransient
      · intro e n _
        simp [hsame, NodeRow.fail]
      · intro e n hcall
        cases hcall
        rw [hsame]
        rfl

/-! ## Runs on fixed texts -/

/-- The row of a registered Node. -/
def registeredRow : NodeRow where
  lastSeen := 0
  lastLatencyMs := 0
  lastError := []
  updatedAt := 0
  failureCount := 0
  recoveryCount := 0
  lastRecoveredAt := 0
  lastOfflineAt := 0

/-- A panel with one Node. -/
def monitored : Monitoring where
  nodes := Table.empty.insert "n1" registeredRow
  alerts := Table.empty

/-- A timeout of the Node. -/
def timeout (now : ℕ) : Request :=
  .failed (codePoints "Node connection failed: TimeoutError") now

/-- The tables after two timeouts. -/
def afterTimeouts : Monitoring :=
  (timeout 20).perform "n1" ((timeout 10).perform "n1" monitored)

theorem remembers_of_storable_timeouts : ∃ b a, afterTimeouts.nodes.get? "n1" = some b ∧
    ((timeout 30).perform "n1" afterTimeouts).nodes.get? "n1" = some a ∧
      Remembers [timeout 10, timeout 20] b (timeout 30) a := by
  have hstart : monitored.nodes.get? "n1" = some registeredRow := by decide +kernel
  have hcall : ∀ m now, Guarded (Requested "n1") Request.Storable m (timeout now)
      ((timeout now).perform "n1" m) := by
    intro m now
    exact ⟨rfl, by decide +kernel, by decide +kernel⟩
  exact remembers_of_storable hstart ⟨rfl, rfl⟩
    ((Run.single (hcall monitored 10)).snoc (hcall _ 20)) (hcall afterTimeouts 30)

/-- A Node that refuses a request with a lone surrogate in the detail of its answer. -/
def surrogateFailure : Request :=
  .failed (codePoints "Node HTTP 400: " ++ [0xD800]) 10

/-- A failure without a text. -/
def emptyFailure : Request :=
  .failed [] 10

/-- After one failure that is no transient error, of one of these two kinds, the Node still
counts as stable. -/
theorem remembers_surrogate : monitored.nodes.get? "n1" = some registeredRow ∧
    registeredRow.Quiet ∧
    (∃ a, (surrogateFailure.perform "n1" monitored).nodes.get? "n1" = some a ∧
      ¬ Remembers [] registeredRow surrogateFailure a) ∧
    ∃ a, (emptyFailure.perform "n1" monitored).nodes.get? "n1" = some a ∧
      ¬ Remembers [] registeredRow emptyFailure a := by
  have hrefused : (surrogateFailure.perform "n1" monitored).nodes.get? "n1" =
      some registeredRow := by decide +kernel
  have hempty : (emptyFailure.perform "n1" monitored).nodes.get? "n1" =
      some { registeredRow with updatedAt := 10, failureCount := 1 } := by decide +kernel
  refine ⟨by decide +kernel, ⟨rfl, rfl⟩, ⟨_, hrefused, ?_⟩, ⟨_, hempty, ?_⟩⟩
  · intro h
    have hsevere : Severe (failuresSince ([] ++ [surrogateFailure])) :=
      .inl ⟨_, List.mem_singleton_self _, by decide +kernel⟩
    have hstable : registeredRow.stable = true := by decide +kernel
    exact absurd (h.unstable.mpr hsevere) (by simp [hstable])
  · intro h
    have hsevere : Severe (failuresSince ([] ++ [emptyFailure])) :=
      .inl ⟨_, List.mem_singleton_self _, by decide +kernel⟩
    exact absurd (h.unstable.mpr hsevere) (by decide +kernel)

end Histories

end Nodes
end DarkXray
