import DarkXray.Library.Documents
import DarkXray.Library.Latches
import DarkXray.Nodes.Traffic
import Mathlib.Data.Finset.Union
import Mathlib.Data.List.Dedup
import Mathlib.Data.List.Sort
import Mathlib.Data.Rat.Defs

/-!
# The global IP and device block

The Hub adds up the addresses and the devices of a client that it saw itself and that the Nodes
of the client report, and blocks a client that exceeds one of its limits.  Missing reports may
hide addresses and devices; they never show that a client is within its limits.

The devices of a client are those that fetched its subscription.  They do not depend on the
source of a connection, so neither the verification of a Node nor the coverage of its listeners
matters for the device block, and a device counts whenever it was last seen.

Main results:

- Theorem {lit}`sweep_clients`: a call changes the blocks of the clients that it looks at, and
  nothing else.
- Theorem {lit}`ipBlocked_eq`, {lit}`deviceBlocked_eq`: the blocks are switches that the
  addresses and the devices turn.
- Theorem {lit}`reconcile_twice`: a second call at the same time changes nothing.
- Theorem {lit}`reconcile_scoped`: a call for some clients gives them the blocks of a full call.
- Theorem {lit}`security_blocks_sound`: what a call may do to the blocks of a client.
-/

namespace DarkXray
namespace Nodes

open Library Policy

/-! ## Tables -/

/-- The columns of {lit}`clients` that the blocks depend on. -/
structure BlockRow where
  limitIp : ℤ
  globalIpBlock : Bool
  globalDeviceBlock : Bool
deriving DecidableEq, Repr

/-- A row of {lit}`managed_clients`; {lit}`inbounds` is {lit}`none` where the column is no list
of integers, and {lit}`limitHwid` is zero where {lit}`desired` has no readable limit. -/
structure GuardedClient where
  inbounds : Option (List ℤ)
  limitHwid : ℤ
  deleted : Bool
deriving DecidableEq, Repr

/-- A row of {lit}`remote_node_security_state`. -/
structure SecurityReport where
  sourceVerified : Bool
  lastSync : ℚ
  lastError : String
deriving DecidableEq

/-- A row of {lit}`observations`. -/
structure Observation where
  clientId : String
  ip : String
  lastSeen : ℚ
deriving DecidableEq

/-- A row of {lit}`remote_node_ips`. -/
structure NodeIp where
  nodeId : String
  clientId : String
  ip : String
  lastSeen : ℚ
  verified : Bool
deriving DecidableEq

/-- A row of {lit}`remote_node_devices`. -/
structure NodeDevice where
  nodeId : String
  clientId : String
  digest : String
deriving DecidableEq

/-- The tables that a call reads and does not write.  The first is the {lit}`window_seconds` of
the section {lit}`ipguard`, {lit}`some none` if it is unreadable; the second are the inbounds
with {lit}`deployLocal` false; {lit}`none` in {lit}`desired` is a document that is unreadable. -/
structure SecurityTables where
  windowSeconds : Option (Option ℤ)
  remoteOnly : List ℤ
  managed : Table String GuardedClient
  enabledNodes : List String
  nodeInbounds : List NodeInbound
  desired : Table String (Option Library.Doc)
  reports : Table String SecurityReport
  observations : List Observation
  nodeIps : List NodeIp
  nodeDevices : List NodeDevice
  coreDevices : List (String × String)

/-- The arguments of {lit}`reconcile_global_security`. -/
structure SecurityCall where
  localSourceVerified : Bool
  localSourceComplete : Option Bool
  now : ℚ
  persist : Bool
  clientIds : Option (List String)
deriving DecidableEq

/-- An item of the answer. -/
structure SecurityItem where
  clientId : String
  nodes : List String
  ipCount : ℕ
  limitIp : ℤ
  ipEnforceable : Bool
  ipCoverageComplete : Bool
  localObservationRequired : Bool
  localSourceComplete : Bool
  remoteSourceComplete : Bool
  ipBlocked : Bool
  deviceCount : ℕ
  limitHwid : ℤ
  deviceComplete : Bool
  deviceBlocked : Bool
deriving DecidableEq, Repr

/-- A client that a call looks at, as it is read in the beginning. -/
structure SecurityMeta where
  clientId : String
  row : BlockRow
  managed : GuardedClient
deriving DecidableEq, Repr

/-! ## The sources of a client -/

namespace SecurityTables

variable (e : SecurityTables) (c : SecurityCall)

/-- The seconds in which an address counts. -/
def window : ℤ :=
  match e.windowSeconds with
  | some (some w) => max 10 w
  | _ => 120

/-- {lit}`_client_inbounds`. -/
def clientInbounds (clientId : String) : Except Failure (List ℤ) :=
  match (e.managed.get? clientId).filter (!·.deleted) with
  | none => .ok []
  | some m => m.inbounds.elim
      (.error (.policyError "Invalid persisted client inbound assignment"))
      fun ids => .ok ((ids.filter (0 < ·)).dedup.mergeSort (· ≤ ·))

/-- {lit}`_assigned_node_ids`. -/
def assignedNodeIds (clientId : String) : Except Failure (List String) := do
  let inboundIds ← e.clientInbounds clientId
  return ((e.nodeInbounds.filter fun r => decide (r.nodeId ∈ e.enabledNodes) &&
    decide (0 < r.remoteInboundId) && decide (r.localInboundId ∈ inboundIds)).map
      NodeInbound.nodeId).dedup.mergeSort (· ≤ ·)

/-- A listener of a desired state that hides the source of its connections: it is enabled and
has a tunnel port of its own. -/
def opaqueListener (item : Library.Doc) : Bool :=
  let inbound := item.getD "inbound" (.dict [])
  item.isDict && inbound.isDict && (inbound.getD "enable" (.bool true)).truthy &&
    ((((inbound.get? "panelMeta").bind fun d => d.get? "tunnelPorts").bind fun d =>
      d.get? "local").bind Library.Doc.int?).elim false fun port => 1 ≤ port && port ≤ 65535

/-- {lit}`_node_source_scope_complete`. -/
def nodeSourceScopeComplete (nodeId : String) : Bool :=
  match e.desired.get? nodeId with
  | some (some payload) =>
      let assignments := if payload.isDict then payload.getD "assignments" (.list []) else .list []
      assignments.list?.elim false fun items => items.all (!opaqueListener ·)
  | _ => false

/-- A Node has reported lately and without an error. -/
def reported (now : ℚ) (nodeId : String) : Bool :=
  (e.reports.get? nodeId).elim false fun s =>
    s.lastSync ≠ 0 && now - s.lastSync < 180 && s.lastError = ""

/-- The report of a Node verifies the sources of its connections. -/
def sourceVerified (nodeId : String) : Bool :=
  (e.reports.get? nodeId).elim false SecurityReport.sourceVerified

/-- A client has an inbound that the Hub serves itself. -/
def localRequired (m : GuardedClient) : Bool :=
  m.inbounds.elim true fun ids => ids.any fun i => i ∉ e.remoteOnly

/-- The verified addresses of a client that were seen within the window. -/
def ipValues (clientId : String) (m : GuardedClient) (assigned : List String) : Finset String :=
  ((if c.localSourceVerified && e.localRequired m then
    (e.observations.filter fun o => o.clientId = clientId &&
      decide (c.now - e.window < o.lastSeen)).map Observation.ip else []) ++
  (e.nodeIps.filter fun o => o.clientId = clientId && o.verified &&
    decide (c.now - e.window < o.lastSeen) && decide (o.nodeId ∈ assigned)).map
      NodeIp.ip).toFinset

/-- The devices of a client that are registered here or at one of its Nodes. -/
def deviceValues (clientId : String) (assigned : List String) : Finset String :=
  ((e.coreDevices.filter (·.1 = clientId)).map Prod.snd ++
  (e.nodeDevices.filter fun o => o.clientId = clientId && decide (o.nodeId ∈ assigned)).map
    NodeDevice.digest).toFinset

end SecurityTables

/-! ## The decision about a client -/

/-- {lit}`local_source_complete` if it is not given. -/
def SecurityCall.localComplete (c : SecurityCall) : Bool :=
  c.localSourceComplete.getD c.localSourceVerified

/-- The IP block that a call decides on. -/
def ipBlock (limit : ℤ) (assigned : List String) (ready complete : Bool) (count : ℕ)
    (blocked : Bool) : Bool :=
  if limit = 0 ∨ assigned = [] then false
  else if ready && decide (limit < count) then true
  else if !complete then blocked
  else false

/-- The device block that a call decides on. -/
def deviceBlock (limit : ℤ) (assigned : List String) (complete : Bool) (count : ℕ)
    (blocked : Bool) : Bool :=
  if limit = 0 ∨ assigned = [] then false
  else if !complete then blocked
  else decide (limit < count)

section Decision

variable (e : SecurityTables) (c : SecurityCall)

/-- All Nodes have reported lately and without an error. -/
def allFresh (assigned : List String) : Bool :=
  assigned.all (e.reported c.now)

/-- The addresses that are known are verified: {lit}`evidence_ready`. -/
def evidenceReady (m : GuardedClient) (assigned : List String) : Bool :=
  !assigned.isEmpty && (!e.localRequired m || c.localSourceVerified) &&
    (allFresh e c assigned && assigned.all e.sourceVerified)

/-- No address can be missing: {lit}`ip_complete`. -/
def ipComplete (m : GuardedClient) (assigned : List String) : Bool :=
  evidenceReady e c m assigned && (!e.localRequired m || c.localComplete) &&
    (allFresh e c assigned && assigned.all e.nodeSourceScopeComplete)

/-- The item of a client with its Nodes. -/
def securityItem (m : SecurityMeta) (assigned : List String) : SecurityItem where
  clientId := m.clientId
  nodes := assigned
  ipCount := (e.ipValues c m.clientId m.managed assigned).card
  limitIp := m.row.limitIp
  ipEnforceable := evidenceReady e c m.managed assigned
  ipCoverageComplete := ipComplete e c m.managed assigned
  localObservationRequired := e.localRequired m.managed
  localSourceComplete := !e.localRequired m.managed || c.localComplete
  remoteSourceComplete := allFresh e c assigned && assigned.all e.nodeSourceScopeComplete
  ipBlocked := ipBlock m.row.limitIp assigned (evidenceReady e c m.managed assigned)
    (ipComplete e c m.managed assigned) (e.ipValues c m.clientId m.managed assigned).card
    m.row.globalIpBlock
  deviceCount := (e.deviceValues m.clientId assigned).card
  limitHwid := m.managed.limitHwid
  deviceComplete := !assigned.isEmpty && allFresh e c assigned
  deviceBlocked := deviceBlock m.managed.limitHwid assigned
    (!assigned.isEmpty && allFresh e c assigned) (e.deviceValues m.clientId assigned).card
    m.row.globalDeviceBlock

/-- The body of the loop for one client, up to what it stores. -/
def decideBlocks (m : SecurityMeta) : Except Failure SecurityItem := do
  let assigned ← e.assignedNodeIds m.clientId
  return securityItem e c m assigned

/-- The row of a client with the blocks of an item. -/
def BlockRow.withBlocks (row : BlockRow) (item : SecurityItem) : BlockRow :=
  { row with globalIpBlock := item.ipBlocked, globalDeviceBlock := item.deviceBlocked }

/-- A client has other blocks than it should. -/
def SecurityMeta.outdated (m : SecurityMeta) (item : SecurityItem) : Bool :=
  m.row.globalIpBlock != item.ipBlocked || m.row.globalDeviceBlock != item.deviceBlocked

/-! ## The call -/

/-- A row of the join of the clients in a scope with those that are managed. -/
def metaOf (scope : Option (List String)) (r : String × BlockRow) : Option SecurityMeta :=
  if scope.all (r.1 ∈ ·) then
    ((e.managed.get? r.1).filter (!·.deleted)).map fun managed => ⟨r.1, r.2, managed⟩
  else none

/-- The clients that a call looks at, in the order of their names. -/
def securityMetas (clients : Table String BlockRow) (scope : Option (List String)) :
    List SecurityMeta :=
  (clients.rows.filterMap (metaOf e scope)).mergeSort fun a b => a.clientId ≤ b.clientId

/-- Store the blocks of a client if they change. -/
def storeBlocks (m : SecurityMeta) (item : SecurityItem) :
    Tx (Table String BlockRow) Failure Unit :=
  Tx.when ((m.outdated item && c.persist) = true) (Tx.transaction (Tx.write fun clients =>
    clients.update m.clientId fun row => row.withBlocks item))

/-- The loop of {lit}`reconcile_global_security`. -/
def sweep : List SecurityMeta → Tx (Table String BlockRow) Failure (List SecurityItem × List String)
  | [] => pure ([], [])
  | m :: metas => do
      let item ← Tx.ofExcept (decideBlocks e c m)
      storeBlocks c m item
      let rest ← sweep metas
      return (item :: rest.1,
        if m.outdated item && c.persist then m.clientId :: rest.2 else rest.2)

/-- The answer of a call. -/
structure SecuritySummary where
  clients : ℕ
  changed : List String
  items : List SecurityItem
  windowSeconds : ℤ
deriving DecidableEq, Repr

/-- The scope of a call, if it has one, consists of names of clients. -/
def SecurityCall.valid (c : SecurityCall) : Bool :=
  c.clientIds.all fun ids => ids.all fun id => id ≠ "" && id.length ≤ 128

/-- {lit}`NodeRegistry.reconcile_global_security` on the table {lit}`clients`. -/
def reconcileGlobalSecurity : Tx (Table String BlockRow) Failure SecuritySummary := do
  Tx.require (c.valid = true) (.policyError "Invalid client security scope")
  if c.clientIds = some [] then return ⟨0, [], [], 120⟩
  else do
    let metas ← Tx.read fun clients => securityMetas e clients c.clientIds
    let rest ← sweep e c metas
    return ⟨rest.1.length, rest.2, rest.1, e.window⟩

/-! ## Single decisions -/

variable {e c}

/-- The IP block of a limited client is a switch that its verified addresses turn. -/
theorem ipBlocked_eq {limit : ℤ} {assigned : List String} {ready complete blocked : Bool}
    {addresses : Finset String} (hlimit : limit ≠ 0) (hassigned : assigned ≠ []) :
    ipBlock limit assigned ready complete addresses.card blocked =
      latch limit ready complete addresses blocked := by
  simp [ipBlock, latch, hlimit, hassigned]

/-- The device block of a limited client is a switch that its devices turn. -/
theorem deviceBlocked_eq {limit : ℤ} {assigned : List String} {complete blocked : Bool}
    {devices : Finset String} (hlimit : limit ≠ 0) (hassigned : assigned ≠ []) :
    deviceBlock limit assigned complete devices.card blocked =
      latch limit complete complete devices blocked := by
  cases complete <;> simp [deviceBlock, latch, hlimit, hassigned]

/-- A decided IP block stays decided. -/
theorem ipBlock_again {limit : ℤ} {assigned : List String} {ready complete blocked : Bool}
    {count : ℕ} : ipBlock limit assigned ready complete count
      (ipBlock limit assigned ready complete count blocked) =
      ipBlock limit assigned ready complete count blocked := by
  unfold ipBlock
  split_ifs <;> rfl

/-- A decided device block stays decided. -/
theorem deviceBlock_again {limit : ℤ} {assigned : List String} {complete blocked : Bool}
    {count : ℕ} : deviceBlock limit assigned complete count
      (deviceBlock limit assigned complete count blocked) =
      deviceBlock limit assigned complete count blocked := by
  unfold deviceBlock
  split_ifs <;> rfl

/-- A decision needs the assigned Nodes and nothing else that can fail. -/
theorem decideBlocks_ok_iff {m : SecurityMeta} {item : SecurityItem} :
    decideBlocks e c m = .ok item ↔
      ∃ assigned, e.assignedNodeIds m.clientId = .ok assigned ∧ item = securityItem e c m assigned := by
  simp only [decideBlocks, except_bind_ok_iff, except_pure_ok_iff]

/-- The client of a row with other blocks. -/
def SecurityMeta.withRow (m : SecurityMeta) (row : BlockRow) : SecurityMeta :=
  { m with row := row }

/-- With its new blocks a client is decided about in the same way. -/
theorem not_outdated_again {m : SecurityMeta} {assigned : List String} :
    (m.withRow (m.row.withBlocks (securityItem e c m assigned))).outdated
      (securityItem e c (m.withRow (m.row.withBlocks (securityItem e c m assigned))) assigned) =
      false := by
  simp only [SecurityMeta.outdated, SecurityMeta.withRow, BlockRow.withBlocks, securityItem,
    ipBlock_again, deviceBlock_again, bne_self_eq_false, Bool.or_self]

/-- A client that is not outdated has the blocks of its item. -/
theorem withBlocks_of_not_outdated {m : SecurityMeta} {item : SecurityItem}
    (h : m.outdated item = false) : m.row.withBlocks item = m.row := by
  simp only [SecurityMeta.outdated, Bool.or_eq_false_iff, bne_eq_false_iff_eq] at h
  simp only [BlockRow.withBlocks, ← h.1, ← h.2]

/-! ## The loop -/

/-- What the loop decides about a client, if it comes to it. -/
def decided (e : SecurityTables) (c : SecurityCall) : List SecurityMeta → String →
    Option SecurityItem
  | [], _ => none
  | m :: metas, id =>
      match decideBlocks e c m with
      | .error _ => none
      | .ok item => if m.clientId = id then some item else decided e c metas id

variable {metas : List SecurityMeta} {clients : Table String BlockRow} {id : String}

/-- The table after the blocks of a client are stored. -/
theorem storeBlocks_eq {m : SecurityMeta} {item : SecurityItem} :
    storeBlocks c m item clients = (.ok (), if (m.outdated item && c.persist) = true then
      clients.update m.clientId fun row => row.withBlocks item else clients) := by
  unfold storeBlocks Tx.when
  split_ifs <;> rfl

/-- A step of the loop. -/
theorem sweep_cons_of_ok {m : SecurityMeta} {item : SecurityItem}
    (h : decideBlocks e c m = .ok item) : sweep e c (m :: metas) clients =
      ((sweep e c metas (storeBlocks c m item clients).2).1.map fun rest => (item :: rest.1,
        if m.outdated item && c.persist then m.clientId :: rest.2 else rest.2),
      (sweep e c metas (storeBlocks c m item clients).2).2) := by
  conv_lhs => rw [sweep, h, Tx.bind_apply]
  simp only [Tx.ofExcept]
  rw [Tx.bind_apply, storeBlocks_eq]
  simp only
  rw [Tx.bind_apply]
  cases sweep e c metas (if (m.outdated item && c.persist) = true then
      clients.update m.clientId fun row => row.withBlocks item else clients) with
  | mk result t' => cases result <;> rfl

/-- A sweep ends where a decision fails, before the row is changed. -/
theorem sweep_cons_of_error {m : SecurityMeta} {failure : Failure}
    (h : decideBlocks e c m = .error failure) :
    sweep e c (m :: metas) clients = (.error failure, clients) := by
  unfold sweep
  rw [h]
  rfl

/-- What was decided about a client is the decision about a row of it. -/
theorem decided_eq_some {item : SecurityItem} (h : decided e c metas id = some item) :
    ∃ m ∈ metas, m.clientId = id ∧ decideBlocks e c m = .ok item := by
  induction metas with
  | nil => simp [decided] at h
  | cons m metas ih =>
      unfold decided at h
      cases hdecide : decideBlocks e c m with
      | error failure => simp [hdecide] at h
      | ok item' =>
          simp only [hdecide] at h
          split_ifs at h with hid
          · exact ⟨m, List.mem_cons_self, hid, by rw [hdecide, Option.some.inj h]⟩
          · obtain ⟨m', hm', h'⟩ := ih h
            exact ⟨m', List.mem_cons_of_mem _ hm', h'⟩

/-- Nothing is decided about a client without a row. -/
theorem decided_eq_none (h : id ∉ metas.map SecurityMeta.clientId) :
    decided e c metas id = none := by
  cases hdecided : decided e c metas id with
  | none => rfl
  | some item =>
      obtain ⟨m, hm, rfl, -⟩ := decided_eq_some hdecided
      exact absurd (List.mem_map_of_mem hm) h

/-- The loop changes the blocks of the clients that it decides about, and nothing else. -/
theorem sweep_clients (hnodup : (metas.map SecurityMeta.clientId).Nodup)
    (hrows : ∀ m ∈ metas, clients.get? m.clientId = some m.row) :
    (sweep e c metas clients).2.get? id = (clients.get? id).map fun row =>
      ((decided e c metas id).filter fun _ => c.persist).elim row row.withBlocks := by
  induction metas generalizing clients with
  | nil => simp [sweep, decided, Tx.pure_apply]
  | cons m metas ih =>
      rw [List.map_cons, List.nodup_cons] at hnodup
      have hrow := hrows m List.mem_cons_self
      have hrest (m' : SecurityMeta) (hm' : m' ∈ metas) : m'.clientId ≠ m.clientId := by
        intro h
        exact hnodup.1 (h ▸ List.mem_map_of_mem hm')
      cases hdecide : decideBlocks e c m with
      | error failure => simp [sweep_cons_of_error hdecide, decided, hdecide]
      | ok item =>
          have hstored (id' : String) : (storeBlocks c m item clients).2.get? id' =
              if id' = m.clientId then some (if c.persist then m.row.withBlocks item else m.row)
              else clients.get? id' := by
            rw [storeBlocks_eq]
            by_cases hid : id' = m.clientId
            · subst hid
              cases hchange : m.outdated item with
              | false =>
                  cases c.persist <;> simp [hrow, withBlocks_of_not_outdated hchange]
              | true => cases c.persist <;> simp [hrow]
            · cases m.outdated item && c.persist <;> simp [hid]
          rw [sweep_cons_of_ok hdecide, ih hnodup.2]
          · rw [hstored]
            simp only [decided, hdecide]
            by_cases hid : id = m.clientId
            · subst hid
              have hnone : decided e c metas m.clientId = none := decided_eq_none hnodup.1
              cases hpersist : c.persist <;> simp [hrow, hnone, Option.filter]
            · simp [hid, Ne.symm hid]
          · intro m' hm'
            rw [hstored, if_neg (hrest m' hm')]
            exact hrows m' (List.mem_cons_of_mem _ hm')

/-! ## The clients of a call -/

variable {scope : Option (List String)}

/-- The rows that are swept are those of managed clients in the scope. -/
theorem metaOf_eq_some_iff {r : String × BlockRow} {m : SecurityMeta} :
    metaOf e scope r = some m ↔ r = (m.clientId, m.row) ∧
      e.managed.get? m.clientId = some m.managed ∧ m.managed.deleted = false ∧
      ∀ ids ∈ scope, m.clientId ∈ ids := by
  unfold metaOf
  constructor
  · intro h
    split_ifs at h with hscope
    simp only [Option.map_eq_some_iff, Option.filter_eq_some_iff] at h
    obtain ⟨managed, ⟨hmanaged, hlive⟩, rfl⟩ := h
    exact ⟨rfl, hmanaged, by simpa using hlive,
      by simpa [Option.all_eq_true] using hscope⟩
  · rintro ⟨rfl, hmanaged, hlive, hscope⟩
    rw [if_pos (by simpa [Option.all_eq_true] using hscope), hmanaged]
    simp [hlive]

/-- A call looks at the managed clients of its scope. -/
theorem mem_securityMetas {m : SecurityMeta} : m ∈ securityMetas e clients scope ↔
    clients.get? m.clientId = some m.row ∧ e.managed.get? m.clientId = some m.managed ∧
      m.managed.deleted = false ∧ ∀ ids ∈ scope, m.clientId ∈ ids := by
  simp only [securityMetas, List.mem_mergeSort, List.mem_filterMap, metaOf_eq_some_iff,
    Table.get?_eq_some_iff]
  constructor
  · rintro ⟨r, hr, rfl, h⟩
    exact ⟨hr, h⟩
  · rintro ⟨hr, h⟩
    exact ⟨_, hr, rfl, h⟩

/-- A client is swept once. -/
theorem nodup_securityMetas :
    ((securityMetas e clients scope).map SecurityMeta.clientId).Nodup := by
  rw [securityMetas, ((List.mergeSort_perm _ _).map _).nodup_iff]
  have hsub : ((clients.rows.filterMap (metaOf e scope)).map SecurityMeta.clientId).Sublist
      (clients.rows.map Prod.fst) := by
    induction clients.rows with
    | nil => simp
    | cons r rows ih =>
        cases hr : metaOf e scope r with
        | none => simpa [hr] using ih.cons _
        | some m =>
            obtain ⟨rfl, -⟩ := metaOf_eq_some_iff.mp hr
            simpa [hr] using ih
  exact hsub.nodup clients.nodupKeys

/-- After the rows have changed, a call looks at the same clients. -/
theorem securityMetas_mapRows {g : String → BlockRow → BlockRow} :
    securityMetas e (clients.mapRows g) scope =
      (securityMetas e clients scope).map fun m => m.withRow (g m.clientId m.row) := by
  have hjoin (r : String × BlockRow) : metaOf e scope (r.1, g r.1 r.2) =
      (metaOf e scope r).map fun m => m.withRow (g m.clientId m.row) := by
    unfold metaOf
    split_ifs
    · simp [SecurityMeta.withRow, Function.comp_def]
    · rfl
  rw [securityMetas, securityMetas, List.map_mergeSort (s := fun a b => a.clientId ≤ b.clientId)]
  · simp only [Table.mapRows, List.filterMap_map, List.map_filterMap, Function.comp_def, hjoin]
  · intro a _ b _
    rfl

/-- What is stored for a client does not matter for whether it can be decided about. -/
theorem decideBlocks_withRow_error {m : SecurityMeta} {failure : Failure} {row : BlockRow}
    (h : decideBlocks e c m = .error failure) :
    decideBlocks e c (m.withRow row) = .error failure := by
  unfold decideBlocks SecurityMeta.withRow at *
  cases hassigned : e.assignedNodeIds m.clientId with
  | error failure' =>
      rw [hassigned] at h
      exact h
  | ok assigned =>
      rw [hassigned] at h
      cases h

/-- With the blocks that the loop has stored, it finds nothing to change. -/
theorem sweep_again {g : String → BlockRow → BlockRow}
    (hnodup : (metas.map SecurityMeta.clientId).Nodup)
    (hg : ∀ m ∈ metas, g m.clientId m.row =
      ((decided e c metas m.clientId).filter fun _ => c.persist).elim m.row m.row.withBlocks) :
    (sweep e c (metas.map fun m => m.withRow (g m.clientId m.row)) clients).2 = clients := by
  induction metas with
  | nil => rfl
  | cons m metas ih =>
      rw [List.map_cons, List.nodup_cons] at hnodup
      rw [List.map_cons]
      cases hdecide : decideBlocks e c m with
      | error failure => rw [sweep_cons_of_error (decideBlocks_withRow_error hdecide)]
      | ok item =>
          obtain ⟨assigned, hassigned, rfl⟩ := decideBlocks_ok_iff.mp hdecide
          have hhead := hg m List.mem_cons_self
          have hagain : decideBlocks e c (m.withRow (g m.clientId m.row)) =
              .ok (securityItem e c (m.withRow (g m.clientId m.row)) assigned) :=
            decideBlocks_ok_iff.mpr ⟨assigned, hassigned, rfl⟩
          have hsteady : ((m.withRow (g m.clientId m.row)).outdated
              (securityItem e c (m.withRow (g m.clientId m.row)) assigned) && c.persist) =
              false := by
            cases hpersist : c.persist with
            | false => rw [Bool.and_false]
            | true =>
                simp only [decided, hdecide, if_true, hpersist, Option.filter_some,
                  Option.elim_some] at hhead
                rw [hhead, not_outdated_again, Bool.false_and]
          rw [sweep_cons_of_ok hagain, storeBlocks_eq, hsteady, if_neg Bool.false_ne_true]
          refine ih hnodup.2 fun m' hm' => ?_
          have hne : m.clientId ≠ m'.clientId := fun h => hnodup.1 (h ▸ List.mem_map_of_mem hm')
          rw [hg m' (List.mem_cons_of_mem _ hm')]
          simp only [decided, hdecide, if_neg hne]

/-- The loop keeps the clients of the table. -/
theorem sweep_mapRows : ∃ g, (sweep e c metas clients).2 = clients.mapRows g := by
  induction metas generalizing clients with
  | nil => exact ⟨fun _ row => row, by simp [sweep, Tx.pure_apply, Table.mapRows]⟩
  | cons m metas ih =>
      cases hdecide : decideBlocks e c m with
      | error failure =>
          exact ⟨fun _ row => row, by rw [sweep_cons_of_error hdecide]; simp [Table.mapRows]⟩
      | ok item =>
          rw [sweep_cons_of_ok hdecide, storeBlocks_eq]
          split_ifs
          · obtain ⟨g, hg⟩ := @ih (clients.update m.clientId fun row => row.withBlocks item)
            rw [hg]
            refine ⟨fun k row => g k (if k = m.clientId then row.withBlocks item else row), ?_⟩
            simp only [Table.update, Table.mapRows, List.map_map]
            rfl
          · exact ih

/-! ## Calls -/

/-- What a call decides about a client, if it comes to it. -/
def answered (e : SecurityTables) (c : SecurityCall) (clients : Table String BlockRow) :
    String → Option SecurityItem :=
  decided e c (securityMetas e clients c.clientIds)

/-- An empty scope has no rows. -/
theorem securityMetas_of_nil : securityMetas e clients (some []) = [] := by
  rw [List.eq_nil_iff_forall_not_mem]
  intro m hm
  exact absurd ((mem_securityMetas.mp hm).2.2.2 [] rfl) List.not_mem_nil

/-- A valid call sweeps the rows of its scope. -/
theorem reconcile_call (h : c.valid = true) : reconcileGlobalSecurity e c clients =
    if c.clientIds = some [] then (.ok ⟨0, [], [], 120⟩, clients)
    else ((sweep e c (securityMetas e clients c.clientIds) clients).1.map fun rest =>
        ⟨rest.1.length, rest.2, rest.1, e.window⟩,
      (sweep e c (securityMetas e clients c.clientIds) clients).2) := by
  have hcall : reconcileGlobalSecurity e c clients =
      (if c.clientIds = some [] then pure ⟨0, [], [], 120⟩
        else Tx.read (fun clients => securityMetas e clients c.clientIds) >>= fun metas =>
          sweep e c metas >>= fun rest => pure ⟨rest.1.length, rest.2, rest.1, e.window⟩ :
        Tx (Table String BlockRow) Failure SecuritySummary) clients := by
    simp only [reconcileGlobalSecurity, Tx.require, h, if_true]
    rfl
  rw [hcall]
  split_ifs with hempty
  · rfl
  · rw [Tx.read_bind, Tx.bind_apply]
    cases sweep e c (securityMetas e clients c.clientIds) clients with
    | mk result t' => cases result <;> rfl

/-- A call that is not refused goes through the clients of its scope. -/
theorem reconcile_eq (h : c.valid = true) : (reconcileGlobalSecurity e c clients).2 =
    (sweep e c (securityMetas e clients c.clientIds) clients).2 := by
  rw [reconcile_call h]
  split_ifs with hempty
  · rw [hempty, securityMetas_of_nil]
    rfl
  · rfl

/-- A call that is not valid changes nothing. -/
theorem reconcile_invalid (h : c.valid = false) :
    (reconcileGlobalSecurity e c clients).2 = clients := by
  simp only [reconcileGlobalSecurity, Tx.require, h, Bool.false_eq_true, if_false]
  rfl

/-- A call changes the blocks of the clients that it decides about, and nothing else. -/
theorem reconcile_clients (h : c.valid = true) :
    (reconcileGlobalSecurity e c clients).2.get? id = (clients.get? id).map fun row =>
      ((answered e c clients id).filter fun _ => c.persist).elim row row.withBlocks := by
  rw [reconcile_eq h, answered]
  exact sweep_clients nodup_securityMetas fun m hm => (mem_securityMetas.mp hm).1

/-- A second call at the same time changes nothing. -/
theorem reconcile_twice :
    (reconcileGlobalSecurity e c (reconcileGlobalSecurity e c clients).2).2 =
      (reconcileGlobalSecurity e c clients).2 := by
  cases hvalid : c.valid with
  | false => rw [reconcile_invalid hvalid, reconcile_invalid hvalid]
  | true =>
      have hafter (id : String) := @reconcile_clients e c clients id hvalid
      rw [reconcile_eq hvalid]
      obtain ⟨g, hg⟩ := @sweep_mapRows e c (securityMetas e clients c.clientIds) clients
      rw [← reconcile_eq hvalid] at hg
      rw [hg, securityMetas_mapRows]
      refine sweep_again nodup_securityMetas fun m hm => ?_
      have hm' := hafter m.clientId
      rw [hg, Table.get?_mapRows, (mem_securityMetas.mp hm).1] at hm'
      exact Option.some.inj hm'

/-! ## What a call may do -/

/-- A managed client with its Nodes, of which there is one. -/
structure Guards (e : SecurityTables) (id : String) (m : GuardedClient) (nodes : List String) :
    Prop where
  managed : e.managed.get? id = some m
  live : m.deleted = false
  assigned : e.assignedNodeIds id = .ok nodes
  nonempty : nodes ≠ []

/-- No source of the addresses of a client is missing: every Node has reported lately, without
an error, with verified sources and for all its listeners, and the Hub sees all of its own. -/
def Covered (e : SecurityTables) (c : SecurityCall) (m : GuardedClient) (nodes : List String) :
    Prop :=
  (∀ n ∈ nodes, e.reported c.now n = true ∧ e.sourceVerified n = true ∧
    e.nodeSourceScopeComplete n = true) ∧
  (e.localRequired m = true → c.localSourceVerified = true ∧ c.localComplete = true)

theorem covered_of_ipComplete {m : GuardedClient} {nodes : List String}
    (h : ipComplete e c m nodes = true) : Covered e c m nodes := by
  simp only [ipComplete, evidenceReady, allFresh, Bool.and_eq_true, Bool.or_eq_true,
    Bool.not_eq_true', List.all_eq_true] at h
  obtain ⟨⟨⟨⟨-, hverified⟩, -, hsources⟩, hcomplete⟩, hfresh, hscopes⟩ := h
  refine ⟨fun n hn => ⟨hfresh n hn, hsources n hn, hscopes n hn⟩, fun hlocal => ?_⟩
  exact ⟨hverified.resolve_left (by simp [hlocal]), hcomplete.resolve_left (by simp [hlocal])⟩

/-- An answer about a client is the decision about its row and its Nodes. -/
theorem answered_eq_some {item : SecurityItem} (h : answered e c clients id = some item) :
    ∃ row m nodes, clients.get? id = some row ∧ e.managed.get? id = some m ∧ m.deleted = false ∧
      e.assignedNodeIds id = .ok nodes ∧ item = securityItem e c ⟨id, row, m⟩ nodes := by
  obtain ⟨m, hm, rfl, hdecide⟩ := decided_eq_some h
  obtain ⟨hrow, hmanaged, hlive, -⟩ := mem_securityMetas.mp hm
  obtain ⟨nodes, hnodes, rfl⟩ := decideBlocks_ok_iff.mp hdecide
  exact ⟨m.row, m.managed, nodes, hrow, hmanaged, hlive, hnodes, rfl⟩

/-- A client keeps its blocks or gets those of its item. -/
theorem reconcile_row {row row' : BlockRow} {m : GuardedClient} {nodes : List String}
    (hrow : clients.get? id = some row)
    (hrow' : (reconcileGlobalSecurity e c clients).2.get? id = some row')
    (h : Guards e id m nodes) :
    row' = row ∨ row' = row.withBlocks (securityItem e c ⟨id, row, m⟩ nodes) := by
  cases hvalid : c.valid with
  | false =>
      rw [reconcile_invalid hvalid, hrow] at hrow'
      exact .inl (Option.some.inj hrow').symm
  | true =>
      rw [reconcile_clients hvalid, hrow, Option.map_some, Option.some.injEq] at hrow'
      cases hitem : (answered e c clients id).filter fun _ => c.persist with
      | none =>
          rw [hitem] at hrow'
          exact .inl hrow'.symm
      | some item =>
          rw [hitem] at hrow'
          obtain ⟨row₁, m₁, nodes₁, hrow₁, hm₁, -, hnodes₁, rfl⟩ :=
            answered_eq_some (Option.filter_eq_some_iff.mp hitem).1
          cases hrow.symm.trans hrow₁
          cases h.managed.symm.trans hm₁
          cases h.assigned.symm.trans hnodes₁
          exact .inr hrow'.symm

/-- The IP block is set by more verified addresses than the limit, and cleared if none can be
missing. -/
theorem ip_block_sound {row row' : BlockRow} {m : GuardedClient} {nodes : List String}
    (hrow : clients.get? id = some row)
    (hrow' : (reconcileGlobalSecurity e c clients).2.get? id = some row')
    (h : Guards e id m nodes) (hlimit : 0 < row.limitIp) :
    (row.globalIpBlock = false → row'.globalIpBlock = true →
      row.limitIp < (e.ipValues c id m nodes).card) ∧
    (row.globalIpBlock = true → row'.globalIpBlock = false → Covered e c m nodes) := by
  have hlatch : (securityItem e c ⟨id, row, m⟩ nodes).ipBlocked =
      latch row.limitIp (evidenceReady e c m nodes) (ipComplete e c m nodes)
        (e.ipValues c id m nodes) row.globalIpBlock :=
    ipBlocked_eq (ne_of_gt hlimit) h.nonempty
  rcases reconcile_row hrow hrow' h with rfl | rfl
  · exact ⟨fun hoff hon => absurd (hoff.symm.trans hon) Bool.false_ne_true,
      fun hon hoff => absurd (hoff.symm.trans hon) Bool.false_ne_true⟩
  · refine ⟨fun hoff hon => ?_, fun hon hoff => ?_⟩
    · exact (latch_on hoff (hlatch.symm.trans hon)).2
    · exact covered_of_ipComplete (latch_off hon (hlatch.symm.trans hoff))

/-- The device block is set by more devices than the limit, and set or cleared only if all Nodes
have reported lately and without an error. -/
theorem device_block_sound {row row' : BlockRow} {m : GuardedClient} {nodes : List String}
    (hrow : clients.get? id = some row)
    (hrow' : (reconcileGlobalSecurity e c clients).2.get? id = some row')
    (h : Guards e id m nodes) (hlimit : 0 < m.limitHwid) :
    (row.globalDeviceBlock = false → row'.globalDeviceBlock = true →
      (∀ n ∈ nodes, e.reported c.now n = true) ∧
        m.limitHwid < (e.deviceValues id nodes).card) ∧
    (row.globalDeviceBlock = true → row'.globalDeviceBlock = false →
      ∀ n ∈ nodes, e.reported c.now n = true) := by
  have hfresh (hcomplete : (!nodes.isEmpty && allFresh e c nodes) = true) :
      ∀ n ∈ nodes, e.reported c.now n = true := by
    rw [Bool.and_eq_true] at hcomplete
    exact List.all_eq_true.mp hcomplete.2
  have hlatch : (securityItem e c ⟨id, row, m⟩ nodes).deviceBlocked =
      latch m.limitHwid (!nodes.isEmpty && allFresh e c nodes)
        (!nodes.isEmpty && allFresh e c nodes) (e.deviceValues id nodes) row.globalDeviceBlock :=
    deviceBlocked_eq (ne_of_gt hlimit) h.nonempty
  rcases reconcile_row hrow hrow' h with rfl | rfl
  · exact ⟨fun hoff hon => absurd (hoff.symm.trans hon) Bool.false_ne_true,
      fun hon hoff => absurd (hoff.symm.trans hon) Bool.false_ne_true⟩
  · refine ⟨fun hoff hon => ?_, fun hon hoff => ?_⟩
    · obtain ⟨hcomplete, hmore⟩ := latch_on hoff (hlatch.symm.trans hon)
      exact ⟨hfresh hcomplete, hmore⟩
    · exact hfresh (latch_off hon (hlatch.symm.trans hoff))

/-! ## More evidence -/

/-- More addresses and devices were seen. -/
def SecurityTables.seeing (e : SecurityTables) (observations : List Observation)
    (nodeIps : List NodeIp) (coreDevices : List (String × String))
    (nodeDevices : List NodeDevice) : SecurityTables :=
  { e with
    observations := e.observations ++ observations
    nodeIps := e.nodeIps ++ nodeIps
    coreDevices := e.coreDevices ++ coreDevices
    nodeDevices := e.nodeDevices ++ nodeDevices }

section Evidence

variable {o : List Observation} {n : List NodeIp} {d : List (String × String)}
  {nd : List NodeDevice}

/-- More observations hide no address. -/
theorem ipValues_subset {m : GuardedClient} {nodes : List String} :
    e.ipValues c id m nodes ⊆ (e.seeing o n d nd).ipValues c id m nodes := by
  intro ip hip
  have hlocal : (e.seeing o n d nd).localRequired m = e.localRequired m := rfl
  have hwindow : (e.seeing o n d nd).window = e.window := rfl
  simp only [SecurityTables.ipValues, hlocal, hwindow, List.mem_toFinset, List.mem_append] at hip ⊢
  refine hip.imp (fun h => ?_) fun h => ?_
  · split_ifs at h ⊢
    · simp only [SecurityTables.seeing, List.filter_append, List.map_append]
      exact List.mem_append_left _ h
    · exact h
  · simp only [SecurityTables.seeing, List.filter_append, List.map_append]
    exact List.mem_append_left _ h

/-- More observations hide no device. -/
theorem deviceValues_subset {nodes : List String} :
    e.deviceValues id nodes ⊆ (e.seeing o n d nd).deviceValues id nodes := by
  intro digest hdigest
  simp only [SecurityTables.deviceValues, SecurityTables.seeing, List.filter_append,
    List.map_append, List.mem_toFinset, List.mem_append] at hdigest ⊢
  exact hdigest.imp .inl .inl

/-- With more evidence an item keeps the blocks that are on. -/
theorem securityItem_mono {m : SecurityMeta} {nodes : List String} :
    ((securityItem e c m nodes).ipBlocked = true →
      (securityItem (e.seeing o n d nd) c m nodes).ipBlocked = true) ∧
    ((securityItem e c m nodes).deviceBlocked = true →
      (securityItem (e.seeing o n d nd) c m nodes).deviceBlocked = true) := by
  have hready : evidenceReady (e.seeing o n d nd) c m.managed nodes =
      evidenceReady e c m.managed nodes := rfl
  have hcomplete : ipComplete (e.seeing o n d nd) c m.managed nodes =
      ipComplete e c m.managed nodes := rfl
  have hfresh : allFresh (e.seeing o n d nd) c nodes = allFresh e c nodes := rfl
  simp only [securityItem, hready, hcomplete, hfresh]
  by_cases hnodes : nodes = []
  · simp [ipBlock, deviceBlock, hnodes]
  constructor
  · by_cases hlimit : m.row.limitIp = 0
    · simp [ipBlock, hlimit]
    · rw [ipBlocked_eq hlimit hnodes, ipBlocked_eq hlimit hnodes]
      exact latch_mono ipValues_subset
  · by_cases hlimit : m.managed.limitHwid = 0
    · simp [deviceBlock, hlimit]
    · rw [deviceBlocked_eq hlimit hnodes, deviceBlocked_eq hlimit hnodes]
      exact latch_mono deviceValues_subset

/-- With more evidence the loop comes to the same clients. -/
theorem decided_seeing : decided (e.seeing o n d nd) c metas id = none ∧
      decided e c metas id = none ∨
    ∃ m nodes, decided e c metas id = some (securityItem e c m nodes) ∧
      decided (e.seeing o n d nd) c metas id =
        some (securityItem (e.seeing o n d nd) c m nodes) := by
  have hassigned (id : String) : (e.seeing o n d nd).assignedNodeIds id = e.assignedNodeIds id := rfl
  induction metas with
  | nil => exact .inl ⟨rfl, rfl⟩
  | cons m metas ih =>
      cases hnodes : e.assignedNodeIds m.clientId with
      | error failure =>
          refine .inl ⟨?_, ?_⟩
          · simp only [decided, decideBlocks, hassigned, hnodes]
            rfl
          · simp only [decided, decideBlocks, hnodes]
            rfl
      | ok nodes =>
          have hdecide : decideBlocks e c m = .ok (securityItem e c m nodes) :=
            decideBlocks_ok_iff.mpr ⟨nodes, hnodes, rfl⟩
          have hdecide' : decideBlocks (e.seeing o n d nd) c m =
              .ok (securityItem (e.seeing o n d nd) c m nodes) :=
            decideBlocks_ok_iff.mpr ⟨nodes, hnodes, rfl⟩
          simp only [decided, hdecide, hdecide']
          by_cases hid : m.clientId = id
          · exact .inr ⟨m, nodes, if_pos hid, if_pos hid⟩
          · rw [if_neg hid, if_neg hid]
            exact ih

/-- More evidence never turns a block off. -/
theorem reconcile_seeing {row row' : BlockRow}
    (hrow : (reconcileGlobalSecurity e c clients).2.get? id = some row)
    (hrow' : (reconcileGlobalSecurity (e.seeing o n d nd) c clients).2.get? id = some row') :
    (row.globalIpBlock = true → row'.globalIpBlock = true) ∧
    (row.globalDeviceBlock = true → row'.globalDeviceBlock = true) := by
  cases hvalid : c.valid with
  | false =>
      rw [reconcile_invalid hvalid] at hrow hrow'
      cases hrow.symm.trans hrow'
      exact ⟨fun h => h, fun h => h⟩
  | true =>
      rw [reconcile_clients hvalid, Option.map_eq_some_iff] at hrow hrow'
      obtain ⟨row₀, hrow₀, rfl⟩ := hrow
      obtain ⟨row₁, hrow₁, rfl⟩ := hrow'
      cases hrow₀.symm.trans hrow₁
      have hmetas : securityMetas (e.seeing o n d nd) clients c.clientIds =
          securityMetas e clients c.clientIds := rfl
      simp only [answered, hmetas]
      rcases @decided_seeing e c (securityMetas e clients c.clientIds) id o n d nd with
        ⟨hnone', hnone⟩ | ⟨m, nodes, hsome, hsome'⟩
      · simp [hnone, hnone']
      · rw [hsome, hsome']
        cases c.persist with
        | false => simp
        | true => exact securityItem_mono

end Evidence

/-! ## Calls for some clients -/

/-- A sweep returns if every decision can be made. -/
theorem sweep_returns_iff {t : Table String BlockRow} :
    (∃ r, (sweep e c metas t).1 = .ok r) ↔ ∀ m ∈ metas, ∃ item, decideBlocks e c m = .ok item := by
  induction metas generalizing t with
  | nil => exact iff_of_true ⟨_, rfl⟩ (by simp)
  | cons m metas ih =>
      rw [List.forall_mem_cons]
      cases hdecide : decideBlocks e c m with
      | error failure => simp [sweep_cons_of_error hdecide]
      | ok item =>
          rw [sweep_cons_of_ok hdecide, ← @ih (storeBlocks c m item t).2]
          cases (sweep e c metas (storeBlocks c m item t).2).1 <;> simp [Except.map]

/-- If all clients can be decided about, the loop decides about each of them. -/
theorem decided_of_mem {m : SecurityMeta} (hnodup : (metas.map SecurityMeta.clientId).Nodup)
    (hall : ∀ m ∈ metas, ∃ item, decideBlocks e c m = .ok item) (hm : m ∈ metas) :
    ∃ item, decideBlocks e c m = .ok item ∧ decided e c metas m.clientId = some item := by
  induction metas with
  | nil => cases hm
  | cons m' metas ih =>
      rw [List.map_cons, List.nodup_cons] at hnodup
      obtain ⟨item', hitem'⟩ := hall m' List.mem_cons_self
      rcases List.mem_cons.mp hm with rfl | hm
      · exact ⟨item', hitem', by simp [decided, hitem']⟩
      · have hne : m'.clientId ≠ m.clientId := fun h => hnodup.1 (h ▸ List.mem_map_of_mem hm)
        obtain ⟨item, hitem, hdecided⟩ :=
          ih hnodup.2 (fun m hm => hall m (List.mem_cons_of_mem _ hm)) hm
        exact ⟨item, hitem, by simp only [decided, hitem', if_neg hne, hdecided]⟩

/-- A call returns exactly if it can decide about all clients of its scope. -/
theorem reconcile_returns_iff (h : c.valid = true) :
    (∃ summary, (reconcileGlobalSecurity e c clients).1 = .ok summary) ↔
      ∀ m ∈ securityMetas e clients c.clientIds, ∃ item, decideBlocks e c m = .ok item := by
  rw [reconcile_call h]
  split_ifs with hempty
  · rw [hempty, securityMetas_of_nil]
    simp
  · rw [← @sweep_returns_iff e c (securityMetas e clients c.clientIds) clients]
    cases (sweep e c (securityMetas e clients c.clientIds) clients).1 <;> simp [Except.map]

/-- A call for some clients gives them the blocks of a full call, and changes no other client. -/
theorem reconcile_scoped {ids : List String} {summary : SecuritySummary}
    (hfull : (reconcileGlobalSecurity e { c with clientIds := none } clients).1 = .ok summary)
    (hvalid : ({ c with clientIds := some ids } : SecurityCall).valid = true) :
    (∃ summary', (reconcileGlobalSecurity e { c with clientIds := some ids } clients).1 =
      .ok summary') ∧
    ∀ id, (reconcileGlobalSecurity e { c with clientIds := some ids } clients).2.get? id =
      if id ∈ ids then (reconcileGlobalSecurity e { c with clientIds := none } clients).2.get? id
      else clients.get? id := by
  have hnone : ({ c with clientIds := none } : SecurityCall).valid = true := rfl
  have hall := (reconcile_returns_iff hnone).mp ⟨summary, hfull⟩
  have hsub (m : SecurityMeta) (hm : m ∈ securityMetas e clients (some ids)) :
      m ∈ securityMetas e clients none := by
    rw [mem_securityMetas] at hm ⊢
    exact ⟨hm.1, hm.2.1, hm.2.2.1, by simp⟩
  have hscope (m : SecurityMeta) (hm : m ∈ securityMetas e clients (some ids)) :
      ∃ item, decideBlocks e { c with clientIds := some ids } m = .ok item :=
    hall m (hsub m hm)
  refine ⟨(reconcile_returns_iff hvalid).mpr hscope, fun id => ?_⟩
  rw [reconcile_clients hvalid, reconcile_clients hnone]
  cases hrow : clients.get? id with
  | none => simp
  | some row =>
      by_cases hid : ∃ m ∈ securityMetas e clients (some ids), m.clientId = id
      · obtain ⟨m, hm, rfl⟩ := hid
        obtain ⟨item, hitem, hdecided⟩ := decided_of_mem nodup_securityMetas hall (hsub m hm)
        obtain ⟨item', hitem', hdecided'⟩ := decided_of_mem nodup_securityMetas hscope hm
        have hitems : item = item' := Except.ok.inj (hitem.symm.trans hitem')
        rw [if_pos ((mem_securityMetas.mp hm).2.2.2 ids rfl)]
        simp only [answered, hdecided, hdecided', hitems]
      · have hscoped : answered e { c with clientIds := some ids } clients id = none :=
          decided_eq_none fun hmem => hid (by simpa using hmem)
        rw [hscoped]
        split_ifs with hmem
        · have hfull' : answered e { c with clientIds := none } clients id = none := by
            refine decided_eq_none fun hids => hid ?_
            obtain ⟨m, hm, rfl⟩ := List.mem_map.mp hids
            obtain ⟨hrow', hmanaged, hlive, -⟩ := mem_securityMetas.mp hm
            exact ⟨m, mem_securityMetas.mpr ⟨hrow', hmanaged, hlive, by simpa using hmem⟩, rfl⟩
          rw [hfull']
        · rfl

/-- What a call may do to the blocks of a client.  The IP block is set by more verified addresses
of the window than the limit, and cleared if no address can be missing; the device block is set
by more devices than the limit, and set or cleared only if all Nodes have reported.  More
evidence turns no block off, a second call changes nothing, and a call for some clients gives
them the blocks of a full call. -/
theorem security_blocks_sound (e : SecurityTables) (c : SecurityCall)
    (clients : Table String BlockRow) :
    (∀ id row row' m nodes, clients.get? id = some row →
      (reconcileGlobalSecurity e c clients).2.get? id = some row' → Guards e id m nodes →
      (0 < row.limitIp →
        (row.globalIpBlock = false → row'.globalIpBlock = true →
          row.limitIp < (e.ipValues c id m nodes).card) ∧
        (row.globalIpBlock = true → row'.globalIpBlock = false → Covered e c m nodes)) ∧
      (0 < m.limitHwid →
        (row.globalDeviceBlock = false → row'.globalDeviceBlock = true →
          (∀ n ∈ nodes, e.reported c.now n = true) ∧
            m.limitHwid < (e.deviceValues id nodes).card) ∧
        (row.globalDeviceBlock = true → row'.globalDeviceBlock = false →
          ∀ n ∈ nodes, e.reported c.now n = true))) ∧
    (∀ o n d nd id row row', (reconcileGlobalSecurity e c clients).2.get? id = some row →
      (reconcileGlobalSecurity (e.seeing o n d nd) c clients).2.get? id = some row' →
      (row.globalIpBlock = true → row'.globalIpBlock = true) ∧
      (row.globalDeviceBlock = true → row'.globalDeviceBlock = true)) ∧
    (reconcileGlobalSecurity e c (reconcileGlobalSecurity e c clients).2).2 =
      (reconcileGlobalSecurity e c clients).2 ∧
    (∀ ids summary,
      (reconcileGlobalSecurity e { c with clientIds := none } clients).1 = .ok summary →
      ({ c with clientIds := some ids } : SecurityCall).valid = true →
      (∃ summary', (reconcileGlobalSecurity e { c with clientIds := some ids } clients).1 =
        .ok summary') ∧
      ∀ id, (reconcileGlobalSecurity e { c with clientIds := some ids } clients).2.get? id =
        if id ∈ ids then (reconcileGlobalSecurity e { c with clientIds := none } clients).2.get? id
        else clients.get? id) := by
  refine ⟨fun id row row' m nodes hrow hrow' h => ⟨?_, ?_⟩, ?_, reconcile_twice, ?_⟩
  · exact fun hlimit => ip_block_sound hrow hrow' h hlimit
  · exact fun hlimit => device_block_sound hrow hrow' h hlimit
  · exact fun o n d nd id row row' hrow hrow' => reconcile_seeing hrow hrow'
  · exact fun ids summary hfull hvalid => reconcile_scoped hfull hvalid

end Decision

/-! ## One client at one Node -/

/-- A client whose limits are one. -/
def oneAtATime : GuardedClient :=
  ⟨some [1], 1, false⟩

/-- One client at one Node that has just reported. -/
def clientAtNode (sourceVerified : Bool) (nodeIps : List NodeIp) : SecurityTables where
  windowSeconds := none
  remoteOnly := [1]
  managed := ⟨[("client", oneAtATime)], by simp⟩
  enabledNodes := ["node"]
  nodeInbounds := [⟨"node", 1, 1⟩]
  desired := .empty
  reports := ⟨[("node", ⟨sourceVerified, 1000, ""⟩)], by simp⟩
  observations := []
  nodeIps := nodeIps
  nodeDevices := []
  coreDevices := []

theorem clientAtNode_guards {sourceVerified : Bool} {nodeIps : List NodeIp} :
    Guards (clientAtNode sourceVerified nodeIps) "client" oneAtATime ["node"] where
  managed := rfl
  live := rfl
  assigned := by
    have h : (clientAtNode true []).assignedNodeIds "client" = .ok ["node"] := by decide +kernel
    exact h
  nonempty := by simp

/-- A call for all clients, just after the report. -/
def fullCall : SecurityCall :=
  ⟨true, none, 1001, true, none⟩

/-- The table of a client with its blocks. -/
def oneClient (ipBlock deviceBlock : Bool) : Table String BlockRow :=
  ⟨[("client", ⟨1, ipBlock, deviceBlock⟩)], by simp⟩

/-- Two addresses of the window. -/
def twoAddresses : List NodeIp :=
  [⟨"node", "client", "192.0.2.1", 990, true⟩, ⟨"node", "client", "192.0.2.2", 995, true⟩]

/-- A client that is used from two addresses is blocked. -/
theorem security_blocks_shared :
    (reconcileGlobalSecurity (clientAtNode true twoAddresses) fullCall (oneClient false false)).2.get?
      "client" = some ⟨1, true, false⟩ ∧
    1 < (((clientAtNode true twoAddresses).ipValues fullCall "client" oneAtATime ["node"]).card : ℤ) := by
  have hafter : (reconcileGlobalSecurity (clientAtNode true twoAddresses) fullCall
      (oneClient false false)).2.get? "client" = some ⟨1, true, false⟩ := by
    decide +kernel
  exact ⟨hafter, (((security_blocks_sound (clientAtNode true twoAddresses) fullCall
    (oneClient false false)).1 "client" ⟨1, false, false⟩ ⟨1, true, false⟩ oneAtATime ["node"] rfl
      hafter clientAtNode_guards).1 (by decide)).1 rfl rfl⟩

/-- The device block is cleared although the only Node has not verified its sources and covers
none of its listeners. -/
theorem device_block_unverified : ∃ row row' m nodes,
    (oneClient false true).get? "client" = some row ∧
      Guards (clientAtNode false []) "client" m nodes ∧ 0 < m.limitHwid ∧ row.globalDeviceBlock = true ∧
      (reconcileGlobalSecurity (clientAtNode false []) fullCall (oneClient false true)).2.get? "client" =
        some row' ∧
      row'.globalDeviceBlock = false ∧ ¬ Covered (clientAtNode false []) fullCall m nodes := by
  refine ⟨⟨1, false, true⟩, ⟨1, false, false⟩, oneAtATime, ["node"], rfl, clientAtNode_guards, by decide,
    rfl, by decide +kernel, rfl, fun h => ?_⟩
  have hverified := (h.1 "node" List.mem_cons_self).2.1
  simp [SecurityTables.sourceVerified, clientAtNode, Table.get?] at hverified

end Nodes
end DarkXray
