import Mathlib.Data.Nat.Notation
import Mathlib.Logic.Function.Basic
import DarkXray.Library.Tables
import DarkXray.Library.Preconditions
import DarkXray.Library.Digraphs

/-!
# Exit routes between Nodes

{lit}`NodeRelay`: customers of one Node leave through another one.  The exit holds a synthetic
credential of the route; the source sends the traffic of an enabled route there.  Each call
talks to one Node or to both, and may stop between any two steps.

Main results:

- Theorem {lit}`mem_activeEdges`: the routes that count for a cycle.
- Theorem {lit}`validate_ok`: what is checked before a route is enabled.
- Theorem {lit}`wp_synchronize`: what an exchange with a Node does.
-/

namespace DarkXray
namespace Nodes

open Library

/-! ## Nodes and inbounds -/

/-- What a route reads of a Node. -/
structure RelayNode where
  enabled : Bool
  inboundIds : List ℕ
  dataAddress : String
  /-- A runtime outbound has a tag that begins with {lit}`dark-relay-`. -/
  reserved : Bool
deriving DecidableEq

/-- The Reality parameters of an exit; the public key belongs to the stored private one. -/
structure RealityKey where
  publicKey : String
  serverName : String
  shortId : String
deriving DecidableEq

/-- What a route reads of an inbound, with the defaults of absent fields; incomplete Reality
settings are none. -/
structure ExitInbound where
  enable : Bool
  protocol : String
  network : String
  security : String
  decryption : String
  listen : String
  header : String
  reality : Option RealityKey
deriving DecidableEq

/-- The Nodes and inbounds of the Hub. -/
structure Estate where
  nodes : String → Option RelayNode
  inbounds : ℕ → Option ExitInbound

/-- {lit}`_inbound`. -/
def relayInbound (e : Estate) (nodeId : String) (inboundId : ℕ) :
    Except String (RelayNode × ExitInbound) :=
  match e.nodes nodeId with
  | none => .error "Unknown remote node"
  | some node =>
      if !node.enabled then .error "Node exit routes require enabled nodes"
      else if inboundId ∉ node.inboundIds then .error "Inbound is not assigned to this node"
      else
        match e.inbounds inboundId with
        | none => .error "Node exit inbound no longer exists"
        | some inbound =>
            if !inbound.enable then .error "Node exit routes require enabled inbounds"
            else .ok (node, inbound)

/-- {lit}`destination`: the transport to an exit. -/
def relayDestination (e : Estate) (exitNode : String) (exitInbound : ℕ) :
    Except String (String × RealityKey) := do
  let (node, inbound) ← relayInbound e exitNode exitInbound
  if inbound.protocol ≠ "vless" ∨ inbound.security ≠ "reality" ∨
      inbound.network ∉ ["tcp", "raw", "grpc"] ∨ inbound.decryption ≠ "none" then
    .error "Choose a VLESS Reality TCP or gRPC exit inbound"
  else if inbound.listen ∉ ["0.0.0.0", "::", ""] then
    .error "Exit inbound must listen on a public interface"
  else if node.dataAddress = "" then .error "Exit node needs a data address"
  else if inbound.network ∈ ["tcp", "raw"] ∧ inbound.header ≠ "none" then
    .error "Exit relay requires a plain Reality transport"
  else
    match inbound.reality with
    | none => .error "Exit Reality settings are incomplete"
    | some key => .ok (inbound.network, key)

/-! ## Routes -/

/-- A source and its inbound: the key of a route. -/
abbrev Route := String × ℕ

/-- The phases of a route. -/
inductive RelayPhase where
  | disabled
  | enabling
  | enabled
  | disabling
  | deleting
deriving DecidableEq

/-- A row of {lit}`node_relays`. -/
structure RelayRow where
  exitNode : String
  exitInbound : ℕ
  identity : String
  credential : String
  enabled : Bool
  phase : RelayPhase
deriving DecidableEq

/-- A route counts for a cycle. -/
def RelayRow.active (row : RelayRow) : Bool :=
  row.enabled || row.phase ≠ .disabled

/-- The part of a desired state that comes from routes: the bridge identities among the
clients, those with a direct rule, and the routes whose listener leads to an exit. -/
structure RelayConfig where
  clients : List String
  exits : List String
  listeners : List Route
deriving DecidableEq

/-- The routes, and what each Node has acknowledged last. -/
structure Fleet where
  rows : Table Route RelayRow
  acked : String → RelayConfig

/-- The exit of a route is this Node, and can be reached. -/
def exitsAt (e : Estate) (nodeId : String) (row : RelayRow) : Bool :=
  row.exitNode = nodeId && row.phase ≠ .deleting &&
    (relayDestination e row.exitNode row.exitInbound).isOk

/-- {lit}`enrich_bundles` and {lit}`compile`. -/
def relayConfig (e : Estate) (rows : Table Route RelayRow) (nodeId : String) : RelayConfig where
  clients := rows.rows.filterMap fun r =>
    if exitsAt e nodeId r.2 && ((e.nodes nodeId).any fun node => r.2.exitInbound ∈ node.inboundIds)
    then some r.2.identity else none
  exits := rows.rows.filterMap fun r =>
    if exitsAt e nodeId r.2 then some r.2.identity else none
  listeners := rows.rows.filterMap fun r =>
    if r.1.1 = nodeId && r.2.enabled && (e.inbounds r.1.2).isSome then some r.1 else none

/-! ## Calls -/

/-- How an exchange ends; a state that cannot be built raises. -/
inductive SyncOutcome where
  | raises
  | unacknowledged
  | acknowledged
deriving DecidableEq

/-- A call under way: the exchanges that it still makes, those that it has made with what was
acknowledged, and the routes after each of its writes. -/
structure RelayDesk where
  estate : Estate
  fleet : Fleet
  outcomes : List SyncOutcome
  syncs : List (String × Option RelayConfig)
  moments : List (Table Route RelayRow)

abbrev RelayTx (α : Type) := Tx RelayDesk String α

/-- {lit}`synchronize`: whether the Node has acknowledged the state as it is now. -/
def synchronize (nodeId : String) : RelayTx Bool := do
  let outcome ← Tx.read fun d => d.outcomes.head?.getD .raises
  Tx.write fun d => { d with outcomes := d.outcomes.tail }
  match outcome with
  | .raises => Tx.raise "Node connection failed"
  | .unacknowledged => do
      Tx.write fun d => { d with syncs := d.syncs ++ [(nodeId, none)] }
      return false
  | .acknowledged => do
      Tx.write fun d => { d with
        fleet := { d.fleet with
          acked := Function.update d.fleet.acked nodeId (relayConfig d.estate d.fleet.rows nodeId) }
        syncs := d.syncs ++ [(nodeId, some (relayConfig d.estate d.fleet.rows nodeId))] }
      return true

/-- Write the routes. -/
def writeRows (f : Table Route RelayRow → Table Route RelayRow) : RelayTx Unit :=
  Tx.write fun d => { d with
    fleet := { d.fleet with rows := f d.fleet.rows }
    moments := d.moments ++ [f d.fleet.rows] }

/-- {lit}`_state`. -/
def writeState (route : Route) (enabled : Bool) (phase : RelayPhase) : RelayTx Unit :=
  writeRows fun rows => rows.update route fun r => { r with enabled := enabled, phase := phase }

/-- {lit}`get`. -/
def relayRow (route : Route) : RelayTx RelayRow := do
  let row ← Tx.read fun d => d.fleet.rows.get? route
  Tx.demand row "Node exit route does not exist"

/-- The edges of the routes that count for a cycle. -/
def activeEdges (rows : Table Route RelayRow) : List (String × String) :=
  rows.rows.filterMap fun r => if r.2.active then some (r.1.1, r.2.exitNode) else none

/-- The edges of the other routes. -/
def otherEdges (rows : Table Route RelayRow) (route : Route) : List (String × String) :=
  rows.rows.filterMap fun r =>
    if r.2.active && r.1 ≠ route then some (r.1.1, r.2.exitNode) else none

/-- {lit}`validate`. -/
def validateRelay (e : Estate) (rows : Table Route RelayRow) (route : Route) (exitNode : String)
    (exitInbound : ℕ) : Except String Unit := do
  if route.1 = exitNode then .error "Source and exit must be different nodes"
  else
    let _ ← relayInbound e route.1 route.2
    let _ ← relayDestination e exitNode exitInbound
    if [route.1, exitNode].any fun n => (e.nodes n).any RelayNode.reserved then
      .error ("The dark-relay- outbound namespace is reserved; " ++
        "rename the existing outbound first")
    else
      let edges := (route.1, exitNode) :: otherEdges rows route
      if revisits edges ((otherEdges rows route).length + 2) [] route.1 then
        .error "Node exit routes must not form a cycle"
      else .ok ()

/-- {lit}`validate` of a stored route. -/
def checkRelay (route : Route) (exitNode : String) (exitInbound : ℕ) : RelayTx Unit := do
  let checked ← Tx.read fun d =>
    validateRelay d.estate d.fleet.rows route exitNode exitInbound
  Tx.ofExcept checked

/-- {lit}`configure`, with a new identity and a new credential for a new route. -/
def configureRelay (route : Route) (exitNode : String) (exitInbound : ℕ)
    (identity credential : String) : RelayTx Unit := do
  let old ← Tx.read fun d => d.fleet.rows.get? route
  Tx.require (¬ ∃ row, old = some row ∧ row.active = true)
    "Disable and synchronize this route before changing its exit"
  checkRelay route exitNode exitInbound
  let rows ← Tx.read fun d => d.fleet.rows.rows
  Tx.require (old = none → ∀ r ∈ rows, r.2.identity ≠ identity)
    "UNIQUE constraint failed: node_relays.identity"
  writeRows fun rows =>
    rows.upsert route ⟨exitNode, exitInbound, identity, credential, false, .disabled⟩
      fun r => { r with exitNode := exitNode, exitInbound := exitInbound }

/-- {lit}`toggle` to enabled. -/
def enableRelay (route : Route) : RelayTx Unit := do
  let row ← relayRow route
  Tx.require (row.phase ≠ .deleting) "Finish deleting this route before changing it"
  Tx.require (row.phase ≠ .disabling) "Finish synchronizing disable before enabling"
  checkRelay route row.exitNode row.exitInbound
  -- the source must take full states before it sees an enabled route
  let preflight ← synchronize route.1
  Tx.require (preflight = true)
    "Source has not acknowledged full configuration; route was not enabled"
  -- the exit must hold the credential before the source uses it
  let exit ← synchronize row.exitNode
  Tx.require (exit = true) "Exit has not acknowledged configuration; source was not enabled"
  writeState route true .enabling
  let result ← synchronize route.1
  Tx.require (result = true)
    "Source synchronization pending; retry this action to confirm its state"
  writeState route true .enabled

/-- {lit}`toggle` to disabled. -/
def disableRelay (route : Route) : RelayTx Unit := do
  let row ← relayRow route
  Tx.require (row.phase ≠ .deleting) "Finish deleting this route before changing it"
  writeState route false .disabling
  let result ← synchronize route.1
  Tx.require (result = true)
    "Source synchronization pending; retry this action to confirm its state"
  writeState route false .disabled

/-- {lit}`delete`. -/
def deleteRelay (route : Route) : RelayTx Unit := do
  let row ← relayRow route
  Tx.require (row.enabled = false ∧ (row.phase = .disabled ∨ row.phase = .deleting))
    "Disable and synchronize the source before deleting its route"
  writeState route false .deleting
  let result ← synchronize row.exitNode
  Tx.require (result = true) "Exit credential removal pending; retry delete to confirm"
  writeRows fun rows => rows.erase route

/-- The calls, and the exchanges of the monitor. -/
inductive RelayCall where
  | configure (route : Route) (exitNode : String) (exitInbound : ℕ)
      (identity credential : String)
  | toggle (route : Route) (enabled : Bool)
  | delete (route : Route)
  | monitor (nodeId : String)
deriving DecidableEq

/-- The body of a call. -/
def RelayCall.body : RelayCall → RelayTx Unit
  | .configure route exitNode exitInbound identity credential =>
      configureRelay route exitNode exitInbound identity credential
  | .toggle route true => enableRelay route
  | .toggle route false => disableRelay route
  | .delete route => deleteRelay route
  | .monitor nodeId => do
      let _ ← synchronize nodeId

/-- A call, with the estate that it meets and the outcomes of its exchanges. -/
structure RelayEvent where
  call : RelayCall
  estate : Estate
  outcomes : List SyncOutcome

/-- The call as it begins. -/
def Fleet.desk (fleet : Fleet) (e : RelayEvent) : RelayDesk :=
  ⟨e.estate, fleet, e.outcomes, [], []⟩

/-- Make a call. -/
def Fleet.perform (fleet : Fleet) (e : RelayEvent) : Except String Unit × RelayDesk :=
  e.call.body (fleet.desk e)

/-! ## The graph of the routes -/

section Graph

variable {rows : Table Route RelayRow} {route : Route} {row : RelayRow}

/-- The routes that count for a cycle. -/
theorem mem_activeEdges {a b : String} :
    (a, b) ∈ activeEdges rows ↔
      ∃ inbound row, rows.get? (a, inbound) = some row ∧ row.active = true ∧ row.exitNode = b := by
  unfold activeEdges
  rw [List.mem_filterMap]
  constructor
  · rintro ⟨⟨⟨source, inbound⟩, row⟩, hmem, hedge⟩
    by_cases hactive : row.active = true
    · simp only [hactive, if_true, Option.some.injEq, Prod.mk.injEq] at hedge
      obtain ⟨rfl, hexit⟩ := hedge
      exact ⟨inbound, row, Table.get?_eq_some_iff.mpr hmem, hactive, hexit⟩
    · simp [hactive] at hedge
  · rintro ⟨inbound, row, hrow, hactive, hexit⟩
    exact ⟨((a, inbound), row), Table.get?_eq_some_iff.mp hrow, by simp [hactive, hexit]⟩

/-- The routes other than one that count for a cycle. -/
theorem mem_otherEdges {a b : String} :
    (a, b) ∈ otherEdges rows route ↔
      ∃ inbound row, rows.get? (a, inbound) = some row ∧ row.active = true ∧
        (a, inbound) ≠ route ∧ row.exitNode = b := by
  unfold otherEdges
  rw [List.mem_filterMap]
  constructor
  · rintro ⟨⟨⟨source, inbound⟩, row⟩, hmem, hedge⟩
    by_cases hactive : row.active = true ∧ (source, inbound) ≠ route
    · simp only [hactive.1, ne_eq, hactive.2, not_false_eq_true, decide_true, Bool.and_self,
        if_true, Option.some.injEq, Prod.mk.injEq] at hedge
      obtain ⟨rfl, hexit⟩ := hedge
      exact ⟨inbound, row, Table.get?_eq_some_iff.mpr hmem, hactive.1, hactive.2, hexit⟩
    · simp only [ne_eq, decide_not, Bool.and_eq_true, Bool.not_eq_true', decide_eq_false_iff_not,
        Option.ite_none_right_eq_some, Option.some.injEq, Prod.mk.injEq] at hedge
      exact absurd hedge.1 hactive
  · rintro ⟨inbound, row, hrow, hactive, hother, hexit⟩
    exact ⟨((a, inbound), row), Table.get?_eq_some_iff.mp hrow, by simp [hactive, hexit, hother]⟩

/-- The edges of the other routes are edges. -/
theorem otherEdges_subset : otherEdges rows route ⊆ activeEdges rows := by
  rintro ⟨a, b⟩ h
  obtain ⟨inbound, row, hrow, hactive, -, hexit⟩ := mem_otherEdges.mp h
  exact mem_activeEdges.mpr ⟨inbound, row, hrow, hactive, hexit⟩

/-- One route has been changed. -/
structure Changed (rows rows' : Table Route RelayRow) (route : Route) (row : Option RelayRow) :
    Prop where
  at_route : rows'.get? route = row
  others : ∀ r, r ≠ route → rows'.get? r = rows.get? r

/-- Two changes of one route are one. -/
theorem Changed.trans {rows₁ rows₂ rows₃ : Table Route RelayRow} {row row' : Option RelayRow}
    (h : Changed rows₁ rows₂ route row) (h' : Changed rows₂ rows₃ route row') :
    Changed rows₁ rows₃ route row' where
  at_route := h'.at_route
  others := fun r hr => (h'.others r hr).trans (h.others r hr)

/-- A row is changed in place. -/
theorem changed_update (g : RelayRow → RelayRow) (hrow : rows.get? route = some row) :
    Changed rows (rows.update route g) route (some (g row)) where
  at_route := by
    rw [Table.get?_update, if_pos rfl, hrow]
    rfl
  others := fun r hr => by rw [Table.get?_update, if_neg hr]

/-- A row is changed or inserted. -/
theorem changed_upsert (rows : Table Route RelayRow) (route : Route) (row : RelayRow)
    (g : RelayRow → RelayRow) : Changed rows (rows.upsert route row g) route
      (some (((rows.get? route).map g).getD row)) where
  at_route := by rw [Table.get?_upsert, if_pos rfl]
  others := fun r hr => by rw [Table.get?_upsert, if_neg hr]

/-- A row is erased. -/
theorem changed_erase : Changed rows (rows.erase route) route none where
  at_route := by rw [Table.get?_erase, if_pos rfl]
  others := fun r hr => by rw [Table.get?_erase, if_neg hr]

/-- The graph after a route has been changed. -/
theorem Changed.edges {rows' : Table Route RelayRow} (h : Changed rows rows' route (some row))
    (hactive : row.active = true) (e : String × String) :
    e ∈ activeEdges rows' ↔ e ∈ (route.1, row.exitNode) :: otherEdges rows route := by
  obtain ⟨a, b⟩ := e
  rw [mem_activeEdges, List.mem_cons, mem_otherEdges]
  constructor
  · rintro ⟨inbound, row', hrow', hactive', rfl⟩
    by_cases hroute : (a, inbound) = route
    · subst hroute
      obtain rfl := Option.some.inj (h.at_route.symm.trans hrow')
      exact Or.inl rfl
    · rw [h.others _ hroute] at hrow'
      exact Or.inr ⟨inbound, row', hrow', hactive', hroute, rfl⟩
  · rintro (hnew | ⟨inbound, row', hrow', hactive', hother, hexit⟩)
    · obtain ⟨rfl, rfl⟩ := Prod.mk.inj hnew
      exact ⟨route.2, row, h.at_route, hactive, rfl⟩
    · exact ⟨inbound, row', (h.others _ hother).trans hrow', hactive', hexit⟩

/-- A route that does not count for a cycle leaves the edges of the others. -/
theorem Changed.quiet {rows' : Table Route RelayRow} {x : Option RelayRow}
    (h : Changed rows rows' route x) (hquiet : ∀ row, x = some row → row.active = false)
    (e : String × String) : e ∈ activeEdges rows' ↔ e ∈ otherEdges rows route := by
  obtain ⟨a, b⟩ := e
  rw [mem_activeEdges, mem_otherEdges]
  constructor
  · rintro ⟨inbound, row', hrow', hactive', rfl⟩
    by_cases hroute : (a, inbound) = route
    · subst hroute
      rw [hquiet row' (h.at_route.symm.trans hrow')] at hactive'
      cases hactive'
    · rw [h.others _ hroute] at hrow'
      exact ⟨inbound, row', hrow', hactive', hroute, rfl⟩
  · rintro ⟨inbound, row', hrow', hactive', hother, hexit⟩
    exact ⟨inbound, row', (h.others _ hother).trans hrow', hactive', hexit⟩

/-- Whether there is a cycle depends on the edges only. -/
theorem cycleFree_congr {κ : Type} {edges edges' : List (κ × κ)}
    (h : ∀ e, e ∈ edges' ↔ e ∈ edges) : CycleFree edges' ↔ CycleFree edges :=
  ⟨fun hfree => hfree.mono fun e he => (h e).mpr he,
    fun hfree => hfree.mono fun e he => (h e).mp he⟩

end Graph

/-! ## What the parts of a call do -/

section Parts

variable {d : RelayDesk} {route : Route}

/-- What an exchange with a Node does. -/
theorem wp_synchronize {nodeId : String} {q : Bool → RelayDesk → Prop}
    {r : String → RelayDesk → Prop}
    (hraises : d.outcomes.head? ≠ some .acknowledged →
      ∀ e, r e { d with outcomes := d.outcomes.tail })
    (hrefuses : d.outcomes.head? ≠ some .acknowledged →
      q false { d with
        outcomes := d.outcomes.tail
        syncs := d.syncs ++ [(nodeId, none)] })
    (haccepts : d.outcomes.head? = some .acknowledged →
      q true { d with
        fleet := { d.fleet with
          acked := Function.update d.fleet.acked nodeId (relayConfig d.estate d.fleet.rows nodeId) }
        outcomes := d.outcomes.tail
        syncs := d.syncs ++ [(nodeId, some (relayConfig d.estate d.fleet.rows nodeId))] }) :
    (synchronize nodeId).wp q r d := by
  unfold synchronize
  simp only [Tx.wp_bind, Tx.wp_read, Tx.wp_write]
  cases houtcome : d.outcomes.head? with
  | none => exact hraises (by simp [houtcome]) _
  | some outcome =>
      cases outcome with
      | raises => exact hraises (by simp [houtcome]) _
      | unacknowledged => exact hrefuses (by simp [houtcome])
      | acknowledged => exact haccepts houtcome

/-- What is checked before a route is enabled. -/
theorem validate_ok {e : Estate} {rows : Table Route RelayRow} {exitNode : String}
    {exitInbound : ℕ} {u : Unit} (h : validateRelay e rows route exitNode exitInbound = .ok u) :
    (relayDestination e exitNode exitInbound).isOk = true ∧
      revisits ((route.1, exitNode) :: otherEdges rows route)
        ((otherEdges rows route).length + 2) [] route.1 = false := by
  unfold validateRelay at h
  split at h
  · cases h
  cases hsource : relayInbound e route.1 route.2 with
  | error m =>
      rw [hsource] at h
      cases h
  | ok source =>
      rw [hsource] at h
      cases hexit : relayDestination e exitNode exitInbound with
      | error m =>
          rw [hexit] at h
          cases h
      | ok target =>
          rw [hexit] at h
          refine ⟨rfl, ?_⟩
          cases hwalk : revisits ((route.1, exitNode) :: otherEdges rows route)
              ((otherEdges rows route).length + 2) [] route.1 with
          | false => rfl
          | true =>
              simp only [bind, Except.bind, hwalk, if_true] at h
              split at h <;> cases h

/-- A reachable exit has the inbound of its route. -/
theorem destination_assigned {e : Estate} {exitNode : String} {exitInbound : ℕ}
    (h : (relayDestination e exitNode exitInbound).isOk = true) :
    ((e.nodes exitNode).any fun node => exitInbound ∈ node.inboundIds) = true := by
  unfold relayDestination at h
  cases hfound : relayInbound e exitNode exitInbound with
  | error m =>
      rw [hfound] at h
      cases h
  | ok found =>
      unfold relayInbound at hfound
      split at hfound
      · cases hfound
      · rename_i node hnode
        split at hfound
        · cases hfound
        split at hfound
        · cases hfound
        · rename_i hassigned
          rw [hnode]
          simpa using hassigned

end Parts

end Nodes
end DarkXray
