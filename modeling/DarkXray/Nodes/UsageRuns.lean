import DarkXray.Library.Runs
import DarkXray.Nodes.UsageBooks
import Mathlib.Data.List.Dedup
import Mathlib.Data.List.Sort

/-!
# Runs of Node metering

Everything that moves the usage rows of the Nodes: traffic snapshots, resets of a
client's counters, replaced installations, changed assignments, and Nodes that are
deleted and registered again.  Beside the tables the state remembers what the tables
themselves forget: the counters that a Node reported last, and the number of the last
ledger entry before a row was reset or given its baseline.

Main results:

- Theorem {lit}`Inv.step`: every step keeps the books.
- Theorem {lit}`Inv.run`: so does every run.
- Theorem {lit}`ledgers_agree`: rows, ledger and totals agree after every run.
-/

namespace DarkXray
namespace Nodes

open Library Policy

/-! ## The other writers of usage rows -/

/-- The part of {lit}`_replace_locked` that concerns usage: the new installation begins
at zero, also for clients that were never sampled on the old one. -/
def Hub.rebaseUsage (h : Hub) (nodeId : String) : Hub :=
  let usage := h.usage.mapRows fun k r =>
    if k.1 = nodeId then { r with rawUp := 0, rawDown := 0, initialized := true } else r
  { h with
    usage := (h.allowedTrafficClients nodeId).foldl
      (fun u e => u.insert (nodeId, e) ⟨0, 0, 0, 0, 0, true⟩) usage
    nodeInbounds := h.nodeInbounds.map fun r =>
      if r.nodeId = nodeId then { r with remoteInboundId := 0 } else r }

/-- A row of {lit}`remote_node_inbounds`, unless it is there. -/
def Hub.assign (h : Hub) (nodeId : String) (inboundId : ℤ) : Hub :=
  if h.nodeInbounds.any fun r => r.nodeId = nodeId && r.localInboundId = inboundId then h
  else { h with nodeInbounds := h.nodeInbounds ++ [⟨nodeId, inboundId, 0⟩] }

/-- Drop rows of {lit}`remote_node_inbounds`. -/
def Hub.unassign (h : Hub) (nodeId : String) (drop : ℤ → Bool) : Hub :=
  { h with nodeInbounds := h.nodeInbounds.filter fun r =>
      !(r.nodeId = nodeId && drop r.localInboundId) }

/-- The usage of a Node that {lit}`delete` refuses to drop. -/
def Hub.retainedUsage (h : Hub) (nodeId : String) : Bool :=
  h.usage.rows.any fun r =>
    r.1.1 = nodeId && (decide (0 < r.2.currentUp) || decide (0 < r.2.currentDown) ||
      decide (0 < r.2.seq))

/-- The Nodes that {lit}`reset_client_traffic` asks, where it can read the client. -/
def Hub.resetNodes (h : Hub) (clientId : String) : Except Failure (List String) :=
  match h.managedClients.get? clientId with
  | none => .ok []
  | some client =>
      if client.deleted = true then .ok []
      else
        match client.inbounds with
        | none => .error .databaseError
        | some inbounds =>
            .ok (((h.nodeInbounds.filter fun r =>
              0 < r.remoteInboundId && r.localInboundId ∈ inbounds).map NodeInbound.nodeId).dedup
                |>.insertionSort (· ≤ ·))

/-! ## The system -/

/-- What is known of a usage row beside the tables: the counters that were reported last,
the last entry before its totals were zeroed, the entry and the counters of its baseline,
and whether the reports since then were never lower than the ones before. -/
structure Mark where
  reported : Way → ℤ
  resetSeq : ℤ
  baseSeq : ℤ
  base : Way → ℤ
  grown : Bool

/-- Nothing is known of a row that is not there. -/
def Mark.zero : Mark where
  reported := fun _ => 0
  resetSeq := 0
  baseSeq := 0
  base := fun _ => 0
  grown := true

/-- The row has a baseline. -/
def hasBaseline (old : Option UsageRow) : Bool :=
  old.any UsageRow.initialized

/-- No counter of a report is below the stored one. -/
def growing (old : Option UsageRow) (report : Option (ℤ × ℤ)) : Bool :=
  old.all fun row => report.all fun c => decide (row.rawUp ≤ c.1) && decide (row.rawDown ≤ c.2)

/-- After a snapshot with a report of the row, or without one: a first report is the
baseline. -/
def Mark.sampled (m : Mark) (old : Option UsageRow) (report : Option (ℤ × ℤ)) : Mark where
  reported := fun way =>
    report.elim (if old = none then 0 else m.reported way) fun c => way.pick c.1 c.2
  resetSeq := m.resetSeq
  baseSeq := if hasBaseline old = true then m.baseSeq else old.elim 0 UsageRow.seq
  base := fun way =>
    if hasBaseline old = true then m.base way else report.elim 0 fun c => way.pick c.1 c.2
  grown := if hasBaseline old = true then m.grown && growing old report else true

/-- After the counters of the Node began again from zero. -/
def Mark.rebased (m : Mark) (seq : ℤ) : Mark where
  reported := fun _ => 0
  resetSeq := m.resetSeq
  baseSeq := seq
  base := fun _ => 0
  grown := true

/-- The tables, {lit}`remote_nodes`, the Nodes with a retired installation, and the
marks of the usage rows. -/
structure UsageSystem where
  hub : Hub
  nodes : List String
  retired : List String
  marks : String × String → Mark

namespace UsageSystem

/-- {lit}`apply_traffic_snapshot` for a registered Node. -/
def snapshot (digest : String → String) (nodeId : String) (items : List TrafficItem)
    (initializeAbsent : Bool) : Tx UsageSystem Failure Snapshot := do
  let known ← Tx.read fun w => decide (nodeId ∈ w.nodes)
  demandPolicy (known = true) "Node installation is no longer registered"
  let old ← Tx.read UsageSystem.hub
  let r ← Tx.within UsageSystem.hub (fun h w => { w with hub := h })
    (applyTrafficSnapshot digest nodeId items initializeAbsent)
  Tx.write fun w => { w with
    marks := fun k =>
      if k.1 = nodeId ∧ k.2 ∈ old.allowedTrafficClients nodeId then
        (w.marks k).sampled (old.usage.get? k) (reportOf items k.2)
      else w.marks k }
  return r

/-- The second transaction of {lit}`reset_client_traffic` for a Node. -/
def settle (nodeId clientId : String) : Tx UsageSystem Failure Unit := do
  let known ← Tx.read fun w => decide (nodeId ∈ w.nodes)
  demandPolicy (known = true) "Node installation is no longer registered"
  Tx.within UsageSystem.hub (fun h w => { w with hub := h }) (resetBaseline nodeId clientId)
  Tx.write fun w => { w with
    marks := fun k =>
      if k = (nodeId, clientId) then
        { (w.marks k).rebased (w.hub.seqOf k) with resetSeq := w.hub.seqOf k }
      else w.marks k }

/-- {lit}`reset_client_traffic` for the Nodes in turn; {lit}`answer` is what a Node answers
to the request, after the checks of its shape. -/
def resetEach (digest : String → String) (answer : String → Except Failure (ℤ × ℤ))
    (clientId : String) : List String → Tx UsageSystem Failure Unit
  | [] => pure ()
  | nodeId :: nodeIds => do
      let counters ← Tx.ofExcept (answer nodeId)
      let _ ← snapshot digest nodeId
        [.item (.str clientId) (.int counters.1) (.int counters.2)] false
      settle nodeId clientId
      resetEach digest answer clientId nodeIds

/-- {lit}`reset_client_traffic`: the number of Nodes that were reset. -/
def resetClientTraffic (digest : String → String) (answer : String → Except Failure (ℤ × ℤ))
    (clientId resetId : String) : Tx UsageSystem Failure ℕ := do
  demandPolicy (8 ≤ resetId.length ∧ resetId.length ≤ 128) "Invalid remote reset ID"
  let found ← Tx.read fun w => w.hub.resetNodes clientId
  let nodeIds ← Tx.ofExcept found
  resetEach digest answer clientId nodeIds
  return nodeIds.length

/-- {lit}`_replace_locked`. -/
def replace (nodeId : String) : Tx UsageSystem Failure Unit := do
  let known ← Tx.read fun w => decide (nodeId ∈ w.nodes)
  demandPolicy (known = true) "Node installation is no longer registered"
  Tx.write fun w => { w with
    hub := w.hub.rebaseUsage nodeId
    retired := nodeId :: w.retired
    marks := fun k =>
      if k.1 = nodeId then (w.marks k).rebased (w.hub.seqOf k) else w.marks k }

/-- {lit}`set_inbound_assignment`. -/
def setInboundAssignment (nodeId : String) (inboundId : ℤ) (assigned : Bool) :
    Tx UsageSystem Failure Unit := do
  demandPolicy (1 ≤ inboundId) "Invalid inbound deployment assignment"
  let known ← Tx.read fun w => decide (nodeId ∈ w.nodes)
  demandPolicy (known = true) "Node not found"
  Tx.write fun w => { w with
    hub := if assigned = true then w.hub.assign nodeId inboundId
      else w.hub.unassign nodeId fun id => id = inboundId }

/-- {lit}`put` as far as it concerns usage: the Node is registered and given its inbounds;
{lit}`moved` says that the origin changes while no identity is pinned. -/
def put (nodeId : String) (inboundIds : List ℤ) (moved : Bool) : Tx UsageSystem Failure Unit := do
  demandPolicy (nameRe nodeId = true) "Invalid node identity"
  demandPolicy (inboundIds.length ≤ 256 ∧ ∀ id ∈ inboundIds, 1 ≤ id) "Invalid node inbound assignment"
  let known ← Tx.read fun w => decide (nodeId ∈ w.nodes)
  Tx.when (known = true ∧ moved = true) <| Tx.write fun w => { w with
    hub := { w.hub with usage := w.hub.usage.mapRows fun k r =>
      if k.1 = nodeId then { r with rawUp := 0, rawDown := 0, initialized := false } else r }
    marks := fun k =>
      if k.1 = nodeId then (w.marks k).rebased (w.hub.seqOf k) else w.marks k }
  Tx.write fun w => { w with
    nodes := if nodeId ∈ w.nodes then w.nodes else nodeId :: w.nodes
    hub := (inboundIds.foldl (fun h id => h.assign nodeId id) w.hub).unassign nodeId
      fun id => id ∉ inboundIds }

/-- {lit}`delete`. -/
def delete (nodeId : String) : Tx UsageSystem Failure Unit :=
  Tx.transaction do
    let history ← Tx.read fun w => decide (nodeId ∈ w.retired)
    let usage ← Tx.read fun w => w.hub.retainedUsage nodeId
    demandPolicy (¬(history = true ∨ usage = true))
      "Node has retained installation/usage history; disable it instead of deleting it"
    let known ← Tx.read fun w => decide (nodeId ∈ w.nodes)
    Tx.write fun w => { w with
      hub := { w.hub.unassign nodeId fun _ => true with
        usage := w.hub.usage.filterRows fun k _ => k.1 ≠ nodeId }
      nodes := w.nodes.filter fun n => n ≠ nodeId
      marks := fun k => if k.1 = nodeId then .zero else w.marks k }
    demandPolicy (known = true) "Node not found"

/-- What can happen. -/
inductive UsageEvent where
  | snapshot (nodeId : String) (items : List TrafficItem) (initializeAbsent : Bool)
  | resetClientTraffic (answer : String → Except Failure (ℤ × ℤ)) (clientId resetId : String)
  /-- The second transaction of a reset whose import another request has overtaken. -/
  | settle (nodeId clientId : String)
  | replace (nodeId : String)
  | setInboundAssignment (nodeId : String) (inboundId : ℤ) (assigned : Bool)
  | put (nodeId : String) (inboundIds : List ℤ) (moved : Bool)
  /-- The Node reports the number that an inbound has there. -/
  | deployed (nodeId : String) (inboundId remoteId : ℤ)
  /-- The inbounds of a client change. -/
  | attach (clientId : String) (inbounds : Option (List ℤ))
  | delete (nodeId : String)

/-- The procedure of an event. -/
def handle (digest : String → String) : UsageEvent → Tx UsageSystem Failure Unit
  | .snapshot nodeId items initializeAbsent => do
      let _ ← snapshot digest nodeId items initializeAbsent
      return ()
  | .resetClientTraffic answer clientId resetId => do
      let _ ← resetClientTraffic digest answer clientId resetId
      return ()
  | .settle nodeId clientId => settle nodeId clientId
  | .replace nodeId => replace nodeId
  | .setInboundAssignment nodeId inboundId assigned => setInboundAssignment nodeId inboundId assigned
  | .put nodeId inboundIds moved => put nodeId inboundIds moved
  | .deployed nodeId inboundId remoteId => Tx.write fun w => { w with
      hub := { w.hub with nodeInbounds := w.hub.nodeInbounds.map fun r =>
        if r.nodeId = nodeId ∧ r.localInboundId = inboundId then
          { r with remoteInboundId := remoteId }
        else r } }
  | .attach clientId inbounds => Tx.write fun w => { w with
      hub := { w.hub with managedClients := w.hub.managedClients.update clientId fun m =>
        { m with inbounds := inbounds } } }
  | .delete nodeId => delete nodeId

/-- The state after an event, whether its procedure returns or raises. -/
def next (digest : String → String) (w : UsageSystem) (event : UsageEvent) : UsageSystem :=
  (handle digest event w).2

/-- The step relation. -/
def Step (digest : String → String) (w : UsageSystem) (event : UsageEvent) (w' : UsageSystem) :
    Prop :=
  w.next digest event = w'

/-- The rows that the Nodes and the clients can have. -/
def Pairs (w : UsageSystem) (k : String × String) : Prop :=
  k.1 ∈ w.nodes ∧ (w.hub.managedClients.get? k.2).isSome = true

/-- The shortened hashes of the rows are pairwise different. -/
def NoCollision (digest : String → String) (w : UsageSystem) : Prop :=
  Separate digest w.Pairs

/-- Nothing was metered yet. -/
structure Start (digest : String → String) (w : UsageSystem) : Prop where
  usage : w.hub.usage = .empty
  ledger : ∀ id r, w.hub.trafficLedger.get? id = some r → Foreign digest id
  used : ∀ e m c, w.hub.managedClients.get? e = some m → w.hub.clients.get? e = some c →
    c.usedBytes = m.lastUp + m.lastDown
  marks : ∀ k, w.marks k = .zero

/-! ## The invariant -/

/-- The marks fit the rows: a row stores what was reported last, and the entries since its
baseline are what was reported beyond it. -/
structure Marked (digest : String → String) (marks : String × String → Mark) (h : Hub) : Prop where
  reported : ∀ k r, h.usage.get? k = some r → ∀ way, r.raw way = (marks k).reported way
  based : ∀ k, 0 ≤ (marks k).baseSeq ∧ (marks k).baseSeq ≤ h.seqOf k
  telescoped : ∀ k r, h.usage.get? k = some r → r.initialized = true → (marks k).grown = true →
    ∀ way, h.entered digest k way (marks k).baseSeq r.seq = r.raw way - (marks k).base way

/-- What holds of every state. -/
structure Inv (digest : String → String) (w : UsageSystem) : Prop where
  books : Books digest w.Pairs (fun k => (w.marks k).resetSeq) w.hub
  marked : Marked digest w.marks w.hub

section Marks

variable {digest : String → String} {nodeId : String} {items : List TrafficItem} {m : Mark}
  {k : String × String} {way : Way} {s t : Hub}

/-- A report that grows is not below the stored readings. -/
theorem growing_pick {row : UsageRow} {c : ℤ × ℤ} (h : growing (some row) (some c) = true)
    (way : Way) : row.raw way ≤ way.pick c.1 c.2 := by
  simp only [growing, Option.all_some, Bool.and_eq_true, decide_eq_true_eq] at h
  cases way
  · exact h.1
  · exact h.2

/-- Without a baseline nothing is read. -/
theorem not_hasBaseline {old : Option UsageRow} (h : hasBaseline old ≠ true) (up down : ℤ)
    (way : Way) : unread old up down way = 0 := by
  cases old with
  | none => rfl
  | some row =>
      simp only [hasBaseline, Option.any_some] at h
      simp [unread, h]

/-- The mark of a row that a snapshot is about, after it. -/
theorem sampled_spec (hbased : 0 ≤ m.baseSeq ∧ m.baseSeq ≤ s.seqOf k) (hseq : 0 ≤ s.seqOf k)
    (hreported : ∀ r, s.usage.get? k = some r → ∀ way, r.raw way = m.reported way)
    (htelescoped : ∀ r, s.usage.get? k = some r → r.initialized = true → m.grown = true →
      ∀ way, s.entered digest k way m.baseSeq r.seq = r.raw way - m.base way)
    (himported : Updated digest k (reportOf items k.2) s t ∨
      (reportOf items k.2 = none ∧ s.usage.get? k = none ∧ t.usage.get? k = some zeroRow)) :
    let m' := m.sampled (s.usage.get? k) (reportOf items k.2)
    (∀ r, t.usage.get? k = some r → ∀ way, r.raw way = m'.reported way) ∧
      (0 ≤ m'.baseSeq ∧ m'.baseSeq ≤ t.seqOf k) ∧
      ∀ r, t.usage.get? k = some r → r.initialized = true → m'.grown = true →
        ∀ way, t.entered digest k way m'.baseSeq r.seq = r.raw way - m'.base way := by
  rcases himported with hupdated | ⟨hnone, hold, hnew⟩
  · have hle := hupdated.seqOf_le
    refine ⟨?_, ?_, ?_⟩
    · intro r hr way
      have hrow := hupdated.usage
      rw [hr] at hrow
      cases hreport : reportOf items k.2 with
      | none =>
          rw [hreport, Option.elim_none] at hrow
          simp only [Mark.sampled, Option.elim_none, ← hrow, reduceCtorEq, if_false]
          exact hreported r hrow.symm way
      | some c =>
          rw [hreport, Option.elim_some, Option.some.injEq] at hrow
          rw [hrow, takeReading_raw]
          rfl
    · simp only [Mark.sampled]
      split
      · exact ⟨hbased.1, hbased.2.trans hle⟩
      · exact ⟨hseq, hle⟩
    · intro r hr hinit hgrown way
      rw [← Hub.seqOf_of_some hr]
      have hrow := hupdated.usage
      rw [hr] at hrow
      simp only [Mark.sampled] at hgrown ⊢
      split at hgrown <;> rename_i hbase
      · rw [if_pos hbase, if_pos hbase, hupdated.entered way _ hbased.1 hbased.2]
        obtain ⟨old, hold⟩ : ∃ old, s.usage.get? k = some old := by
          cases hold : s.usage.get? k with
          | none => rw [hold] at hbase; cases hbase
          | some old => exact ⟨old, rfl⟩
        have holdinit : old.initialized = true := by simpa [hasBaseline, hold] using hbase
        rw [Bool.and_eq_true] at hgrown
        rw [Hub.seqOf_of_some hold, htelescoped old hold holdinit hgrown.1 way]
        rw [hold] at hrow hgrown ⊢
        cases hreport : reportOf items k.2 with
        | none =>
            rw [hreport, Option.elim_none, Option.some.injEq] at hrow
            rw [hrow, Option.elim_none, add_zero]
        | some c =>
            rw [hreport] at hrow hgrown
            rw [Option.elim_some, Option.some.injEq] at hrow
            have hgrow := growing_pick hgrown.2 way
            rw [hrow, takeReading_raw, Option.elim_some, unread, Option.elim_some, if_pos holdinit,
              counterDelta, if_pos hgrow]
            omega
      · rw [if_neg hbase, if_neg hbase]
        change t.entered digest k way (s.seqOf k) (t.seqOf k) = _
        rw [hupdated.entered way _ hseq (le_refl _), Hub.entered, Table.between_self, zero_add]
        cases hreport : reportOf items k.2 with
        | none =>
            rw [hreport, Option.elim_none] at hrow
            rw [← hrow] at hbase
            exact absurd (by simpa [hasBaseline] using hinit) hbase
        | some c =>
            rw [hreport, Option.elim_some, Option.some.injEq] at hrow
            rw [Option.elim_some, Option.elim_some, not_hasBaseline hbase, hrow, takeReading_raw,
              sub_self]
  · have hseq' : t.seqOf k = 0 := by rw [Hub.seqOf_of_some hnew]; rfl
    have hno : hasBaseline (none : Option UsageRow) ≠ true := by decide
    rw [hold, hnone]
    refine ⟨fun r hr way => ?_, ?_, fun r hr _ _ way => ?_⟩
    · rw [hnew, Option.some.injEq] at hr
      subst hr
      cases way <;> rfl
    · simp only [Mark.sampled, if_neg hno, hseq']
      exact ⟨le_refl 0, le_refl 0⟩
    · rw [hnew, Option.some.injEq] at hr
      subst hr
      simp only [Mark.sampled, if_neg hno]
      have hself : t.entered digest k way 0 0 = 0 := Table.between_self
      refine hself.trans ?_
      cases way <;> rfl

/-- A snapshot keeps the marks. -/
theorem Marked.sampled {K : String × String → Prop} {mark : String × String → ℤ}
    {marks : String × String → Mark} (h : Marked digest marks s)
    (hallowed : ∀ e ∈ s.allowedTrafficClients nodeId, K (nodeId, e)) (hs : Books digest K mark s)
    (ht : Books digest K mark t) (himported : ∀ k, K k → Imported digest nodeId items k s t) :
    Marked digest (fun k =>
      if k.1 = nodeId ∧ k.2 ∈ s.allowedTrafficClients nodeId then
        (marks k).sampled (s.usage.get? k) (reportOf items k.2)
      else marks k) t := by
  have hserved : ∀ k, k.1 = nodeId ∧ k.2 ∈ s.allowedTrafficClients nodeId → K k := by
    rintro k ⟨rfl, he⟩
    exact hallowed k.2 he
  have hpos : ∀ k, 0 ≤ s.seqOf k := fun k => (hs.marked k).1.trans (hs.marked k).2
  -- a row that the snapshot is about
  have hsampled : ∀ k, k.1 = nodeId ∧ k.2 ∈ s.allowedTrafficClients nodeId →
      let m' := (marks k).sampled (s.usage.get? k) (reportOf items k.2)
      (∀ r, t.usage.get? k = some r → ∀ way, r.raw way = m'.reported way) ∧
        (0 ≤ m'.baseSeq ∧ m'.baseSeq ≤ t.seqOf k) ∧
        ∀ r, t.usage.get? k = some r → r.initialized = true → m'.grown = true →
          ∀ way, t.entered digest k way m'.baseSeq r.seq = r.raw way - m'.base way := by
    intro k hk
    refine sampled_spec (h.based k) (hpos k) (h.reported k) (h.telescoped k) ?_
    refine (himported k (hserved k hk)).imp ?_ fun hseed => ⟨hseed.2.2.1, hseed.2.2.2⟩
    rw [pendingReport, if_pos ⟨hk.1, hk.2, List.not_mem_nil⟩]
    exact id
  -- a row that it is not about
  have hkept : ∀ k, K k → ¬(k.1 = nodeId ∧ k.2 ∈ s.allowedTrafficClients nodeId) →
      Updated digest k none s t := by
    intro k hk hother
    rcases himported k hk with hupdated | ⟨hnode, he, _⟩
    · rwa [pendingReport, if_neg fun hk' => hother ⟨hk'.1, hk'.2.1⟩] at hupdated
    · exact absurd ⟨hnode, he⟩ hother
  refine ⟨fun k r hr => ?_, fun k => ?_, fun k r hr => ?_⟩
  · have hk := (ht.rows k r hr).1
    split <;> rename_i hcase
    · exact (hsampled k hcase).1 r hr
    · rw [(hkept k hk hcase).usage] at hr
      exact h.reported k r hr
  · split <;> rename_i hcase
    · exact (hsampled k hcase).2.1
    · have hbased := h.based k
      by_cases hk : K k
      · rwa [(hkept k hk hcase).seqOf_none]
      · have hnone : ∀ u : Hub, Books digest K mark u → u.seqOf k = 0 := by
          intro u hu
          cases hrow : u.usage.get? k with
          | none => simp [Hub.seqOf, hrow]
          | some r => exact absurd (hu.rows k r hrow).1 hk
        rw [hnone s hs] at hbased
        rwa [hnone t ht]
  · have hk := (ht.rows k r hr).1
    split <;> rename_i hcase
    · exact (hsampled k hcase).2.2 r hr
    · intro hinit hgrown way
      have hupdated := hkept k hk hcase
      have hentered := hupdated.entered way _ (h.based k).1 (h.based k).2
      rw [Hub.seqOf_of_some hr, Option.elim_none, add_zero] at hentered
      rw [hupdated.usage, Option.elim_none] at hr
      rw [hentered, Hub.seqOf_of_some hr]
      exact h.telescoped k r hr hinit hgrown way

/-- Rows that begin again from zero, rows that stay, and rows that are gone keep their
marks. -/
theorem Marked.rebased {marks marks' : String × String → Mark} (h : Marked digest marks s)
    (hpos : ∀ k, 0 ≤ s.seqOf k) (hseq : ∀ k, t.seqOf k = s.seqOf k)
    (hledger : t.trafficLedger = s.trafficLedger)
    (hrows : ∀ k,
      ((∃ n, marks' k = { (marks k).rebased (s.seqOf k) with resetSeq := n }) ∧
        ∀ r, t.usage.get? k = some r → ∀ way, r.raw way = 0) ∨
      (marks' k = marks k ∧ t.usage.get? k = s.usage.get? k) ∨
      (marks' k = .zero ∧ t.usage.get? k = none)) : Marked digest marks' t := by
  refine ⟨fun k r hr way => ?_, fun k => ?_, fun k r hr hinit hgrown way => ?_⟩
  · rcases hrows k with ⟨⟨n, hmark⟩, hraw⟩ | ⟨hmark, hsame⟩ | ⟨_, hgone⟩
    · rw [hraw r hr, hmark]
      rfl
    · rw [hsame] at hr
      rw [hmark]
      exact h.reported k r hr way
    · rw [hgone] at hr
      cases hr
  · rw [hseq]
    rcases hrows k with ⟨⟨n, hmark⟩, _⟩ | ⟨hmark, _⟩ | ⟨hmark, _⟩
    · rw [hmark]
      exact ⟨hpos k, le_refl _⟩
    · rw [hmark]
      exact h.based k
    · rw [hmark]
      exact ⟨le_refl 0, hpos k⟩
  · have hentered : ∀ lo, t.entered digest k way lo r.seq = s.entered digest k way lo r.seq := by
      intro lo
      rw [Hub.entered, hledger, Hub.entered]
    rw [hentered]
    rcases hrows k with ⟨⟨n, hmark⟩, hraw⟩ | ⟨hmark, hsame⟩ | ⟨_, hgone⟩
    · rw [hraw r hr, ← Hub.seqOf_of_some hr, hseq, hmark]
      exact Table.between_self
    · rw [hsame] at hr
      rw [hmark] at hgrown ⊢
      exact h.telescoped k r hr hinit hgrown way
    · rw [hgone] at hr
      cases hr

end Marks

/-! ## Steps -/

section Steps

variable {digest : String → String} {nodeId clientId : String} {w w' : UsageSystem}

/-- The clients whose traffic a Node may report are managed. -/
theorem mem_allowedTrafficClients {h : Hub} {e : String} (he : e ∈ h.allowedTrafficClients nodeId) :
    (h.managedClients.get? e).isSome = true := by
  simp only [Hub.allowedTrafficClients, List.mem_map, List.mem_filter] at he
  obtain ⟨r, ⟨hr, _⟩, rfl⟩ := he
  rw [Table.get?_eq_some_iff.mpr hr]
  rfl

/-- The pairs depend on the Nodes and the managed clients only. -/
theorem pairs_eq (hnodes : w'.nodes = w.nodes)
    (hmanaged : w'.hub.managedClients = w.hub.managedClients) : w'.Pairs = w.Pairs := by
  funext k
  simp only [Pairs, hnodes, hmanaged]

/-- Changes that give rows another baseline keep the invariant. -/
theorem Inv.rebased (h : w.Inv digest) (hrebased : Rebased w'.Pairs w.hub w'.hub)
    (hpairs : ∀ k, 0 < w.hub.seqOf k → w.Pairs k → w'.Pairs k)
    (hmarks : ∀ k, (w'.marks k).resetSeq = (w.marks k).resetSeq)
    (hrows : ∀ k,
      ((∃ n, w'.marks k = { (w.marks k).rebased (w.hub.seqOf k) with resetSeq := n }) ∧
        ∀ r, w'.hub.usage.get? k = some r → ∀ way, r.raw way = 0) ∨
      (w'.marks k = w.marks k ∧ w'.hub.usage.get? k = w.hub.usage.get? k) ∨
      (w'.marks k = .zero ∧ w'.hub.usage.get? k = none)) : w'.Inv digest := by
  constructor
  · have hbooks := h.books.rebased hrebased hpairs
    rwa [← funext hmarks] at hbooks
  · exact h.marked.rebased (fun k => (h.books.marked k).1.trans (h.books.marked k).2) hrebased.seqOf
      hrebased.ledger hrows

/-- A snapshot keeps the invariant, and one that raises changes nothing. -/
theorem Inv.snapshot (h : w.Inv digest) (hsep : w.NoCollision digest) (nodeId : String)
    (items : List TrafficItem) (initializeAbsent : Bool) :
    Tx.wp (snapshot digest nodeId items initializeAbsent)
      (fun _ t => t.Inv digest ∧ t.Pairs = w.Pairs)
      (fun f t => f ≠ .integrityError ∧ t = w) w := by
  simp only [UsageSystem.snapshot, demandPolicy, Tx.wp_bind, Tx.wp_read, Tx.wp_require, Tx.wp_within,
    Tx.wp_write, Tx.wp_pure, decide_eq_true_eq]
  refine ⟨fun hnode => ?_, fun _ => ⟨by rintro ⟨⟩, trivial⟩⟩
  have hallowed : ∀ e ∈ w.hub.allowedTrafficClients nodeId, w.Pairs (nodeId, e) :=
    fun e he => ⟨hnode, mem_allowedTrafficClients he⟩
  refine Tx.wp_mono (applyTrafficSnapshot_spec hsep hallowed h.books items initializeAbsent) ?_ ?_
  · rintro r t ⟨hbooks, himported, _, hmanaged⟩
    have hpairs : ∀ marks, UsageSystem.Pairs { w with hub := t, marks := marks } = w.Pairs :=
      fun marks => pairs_eq rfl hmanaged
    have hrow : ∀ k, (w.marks k).resetSeq = ((if k.1 = nodeId ∧ k.2 ∈ w.hub.allowedTrafficClients nodeId
        then (w.marks k).sampled (w.hub.usage.get? k) (reportOf items k.2)
        else w.marks k) : Mark).resetSeq := by
      intro k
      split
      · rfl
      · rfl
    refine ⟨⟨?_, h.marked.sampled hallowed h.books hbooks himported⟩, hpairs _⟩
    rw [hpairs]
    dsimp only
    rwa [funext hrow] at hbooks
  · rintro f t ⟨hf, rfl⟩
    exact ⟨hf, rfl⟩

/-- Zeroing the baseline and the totals of a row. -/
theorem resetBaseline_spec (nodeId clientId : String) (s : Hub) :
    Tx.wp (resetBaseline nodeId clientId)
      (fun _ t => t.trafficLedger = s.trafficLedger ∧ t.managedClients = s.managedClients ∧
        (∀ j, t.usage.get? j = if j = (nodeId, clientId) then (s.usage.get? j).map fun r =>
          { r with rawUp := 0, rawDown := 0, currentUp := 0, currentDown := 0, initialized := true }
          else s.usage.get? j) ∧
        (∀ m c, s.managedClients.get? clientId = some m → t.clients.get? clientId = some c →
          c.usedBytes = m.lastUp + m.lastDown + t.remote clientId) ∧
        ∀ e, e ≠ clientId → t.clients.get? e = s.clients.get? e ∧ t.remote e = s.remote e)
      (fun f t => f ≠ .integrityError ∧ t = s) s := by
  simp only [resetBaseline, Tx.wp_transaction, Tx.wp_bind, Tx.wp_write]
  refine Tx.wp_mono (recomputeClientUsage_spec clientId _) (fun _ t h => ?_) fun _ _ hf => ⟨hf, trivial⟩
  obtain ⟨clients, rfl⟩ := h.frame
  refine ⟨rfl, rfl, fun j => ?_, h.used, fun e he => ⟨h.others e he, ?_⟩⟩
  · exact Table.get?_update _ _ _ _
  · simp only [Hub.remote]
    refine Table.total_update_eq fun r => ?_
    rw [if_neg (Ne.symm he), if_neg (Ne.symm he)]

/-- The second half of a reset keeps the invariant. -/
theorem Inv.settle (h : w.Inv digest) (nodeId clientId : String) :
    Tx.wp (settle nodeId clientId) (fun _ t => t.Inv digest ∧ t.Pairs = w.Pairs)
      (fun f t => f ≠ .integrityError ∧ t = w) w := by
  simp only [UsageSystem.settle, demandPolicy, Tx.wp_bind, Tx.wp_read, Tx.wp_require, Tx.wp_within,
    Tx.wp_write]
  refine ⟨fun _ => ?_, fun _ => ⟨by rintro ⟨⟩, trivial⟩⟩
  refine Tx.wp_mono (resetBaseline_spec nodeId clientId w.hub) ?_ ?_
  · rintro _ t ⟨hledger, hmanaged, hrows, hused, hothers⟩
    have hseq : ∀ k, t.seqOf k = w.hub.seqOf k := by
      intro k
      rw [Hub.seqOf, hrows, Hub.seqOf]
      split
      · cases w.hub.usage.get? k <;> rfl
      · rfl
    have hpairs : ∀ marks, UsageSystem.Pairs { w with hub := t, marks := marks } = w.Pairs :=
      fun marks => pairs_eq rfl hmanaged
    refine ⟨⟨?_, ?_⟩, hpairs _⟩
    · have hbooks := h.books.settled hledger hmanaged hrows hused hothers
      have hmark : (fun j => if j = (nodeId, clientId) then w.hub.seqOf (nodeId, clientId)
          else (w.marks j).resetSeq) = fun k => ((if k = (nodeId, clientId) then
            { (w.marks k).rebased (t.seqOf k) with resetSeq := t.seqOf k }
            else w.marks k) : Mark).resetSeq := by
        funext k
        split <;> rename_i hk
        · rw [hseq, hk]
        · rfl
      rw [hpairs]
      dsimp only
      rwa [hmark] at hbooks
    · refine h.marked.rebased (fun k => (h.books.marked k).1.trans (h.books.marked k).2) hseq hledger
        fun k => ?_
      dsimp only
      by_cases hk : k = (nodeId, clientId)
      · rw [if_pos hk, hseq]
        refine .inl ⟨⟨_, rfl⟩, fun r hr way => ?_⟩
        rw [hrows, if_pos hk] at hr
        obtain ⟨row, _, rfl⟩ := Option.map_eq_some_iff.mp hr
        cases way <;> rfl
      · rw [if_neg hk]
        refine .inr (.inl ⟨rfl, ?_⟩)
        rw [hrows, if_neg hk]
  · rintro f t ⟨hf, rfl⟩
    exact ⟨hf, rfl⟩

/-- Resetting Nodes in turn keeps the invariant, however far it comes, and never meets a
taken event id. -/
theorem Inv.resetEach {answer : String → Except Failure (ℤ × ℤ)} (nodeIds : List String) :
    ∀ {w : UsageSystem}, w.Inv digest → w.NoCollision digest →
      Tx.wp (resetEach digest answer clientId nodeIds) (fun _ t => t.Inv digest)
        (fun f t => t.Inv digest ∧
          ((∀ nodeId, answer nodeId ≠ .error .integrityError) → f ≠ .integrityError)) w := by
  induction nodeIds with
  | nil => exact fun h _ => h
  | cons nodeId nodeIds ih =>
      intro w h hsep
      simp only [UsageSystem.resetEach, Tx.wp_bind, Tx.wp_ofExcept]
      refine ⟨fun counters _ => ?_, fun f hf => ⟨h, fun hanswer heq => ?_⟩⟩
      case refine_2 => exact hanswer nodeId (heq ▸ hf)
      refine Tx.wp_mono (h.snapshot hsep nodeId _ false) ?_ ?_
      · rintro _ t ⟨ht, hpairs⟩
        refine Tx.wp_mono (ht.settle nodeId clientId) ?_ ?_
        · rintro _ u ⟨hu, hpairs'⟩
          refine ih hu ?_
          rwa [NoCollision, hpairs', hpairs]
        · rintro f u ⟨hf, rfl⟩
          exact ⟨ht, fun _ => hf⟩
      · rintro f t ⟨hf, rfl⟩
        exact ⟨h, fun _ => hf⟩

/-- A reset of a client keeps the invariant, however far it comes, and never meets a taken
event id. -/
theorem Inv.resetClientTraffic (h : w.Inv digest) (hsep : w.NoCollision digest)
    (answer : String → Except Failure (ℤ × ℤ)) (clientId resetId : String) :
    Tx.wp (resetClientTraffic digest answer clientId resetId) (fun _ t => t.Inv digest)
      (fun f t => t.Inv digest ∧
        ((∀ nodeId, answer nodeId ≠ .error .integrityError) → f ≠ .integrityError)) w := by
  simp only [UsageSystem.resetClientTraffic, demandPolicy, Tx.wp_bind, Tx.wp_pure, Tx.wp_require,
    Tx.wp_read, Tx.wp_ofExcept]
  refine ⟨fun _ => ⟨fun nodeIds _ => Inv.resetEach nodeIds h hsep, fun f hf => ⟨h, fun _ => ?_⟩⟩,
    fun _ => ⟨h, fun _ => by rintro ⟨⟩⟩⟩
  rintro rfl
  unfold Hub.resetNodes at hf
  split at hf
  · cases hf
  · split at hf
    · cases hf
    · split at hf <;> cases hf

/-- The hub in which the counters of a Node are zero. -/
def rezeroed (h : Hub) (nodeId : String) (initialized : Bool) : Hub :=
  { h with usage := h.usage.mapRows fun k r =>
      if k.1 = nodeId then { r with rawUp := 0, rawDown := 0, initialized := initialized } else r }

/-- The readings of a Node that begins again are zero. -/
theorem rezeroed_raw {h : Hub} {initialized : Bool} {k : String × String} {r : UsageRow}
    (hk : k.1 = nodeId) (hr : (rezeroed h nodeId initialized).usage.get? k = some r) (way : Way) :
    r.raw way = 0 := by
  rw [rezeroed, Table.get?_mapRows] at hr
  obtain ⟨row, _, rfl⟩ := Option.map_eq_some_iff.mp hr
  rw [if_pos hk]
  cases way <;> rfl

/-- The rows of other Nodes are kept. -/
theorem rezeroed_other {h : Hub} {initialized : Bool} {k : String × String} (hk : k.1 ≠ nodeId) :
    (rezeroed h nodeId initialized).usage.get? k = h.usage.get? k := by
  rw [rezeroed, Table.get?_mapRows]
  cases h.usage.get? k with
  | none => rfl
  | some r => rw [Option.map_some, if_neg hk]

/-- Counters that begin again from zero count nothing new. -/
theorem Inv.rebased_rezeroed (h : w.Inv digest) (nodeId : String) (initialized : Bool) :
    Rebased w.Pairs w.hub (rezeroed w.hub nodeId initialized) := by
  have hcurrent : ∀ (k : String × String) (r : UsageRow) (way : Way),
      (if k.1 = nodeId then { r with rawUp := 0, rawDown := 0, initialized := initialized }
        else r : UsageRow).current way = r.current way := by
    intro k r way
    split
    · cases way <;> rfl
    · rfl
  refine ⟨fun k r hr => ?_, fun k => ?_, fun e => ?_, rfl, rfl, fun e m hm => ⟨m, hm, rfl, rfl⟩⟩
  · have hraw := hr
    rw [rezeroed, Table.get?_mapRows] at hr
    obtain ⟨row, hrow, rfl⟩ := Option.map_eq_some_iff.mp hr
    obtain ⟨hk, hpos⟩ := h.books.rows k row hrow
    refine ⟨hk, fun way => ⟨?_, ?_⟩⟩
    · by_cases hnode : k.1 = nodeId
      · exact (rezeroed_raw hnode hraw way).ge
      · rw [if_neg hnode]
        exact (hpos way).1
    · rw [hrow, hcurrent]
      rfl
  · rw [Hub.seqOf, rezeroed, Table.get?_mapRows, Hub.seqOf]
    cases w.hub.usage.get? k with
    | none => rfl
    | some row =>
        rw [Option.map_some, Option.elim_some, Option.elim_some]
        split <;> rfl
  · simp only [Hub.remote, rezeroed, Table.total_mapRows]
    refine Table.total_congr fun k r _ => ?_
    have hup := hcurrent k r .up
    have hdown := hcurrent k r .down
    simp only [UsageRow.current] at hup hdown
    rw [hup, hdown]

/-- The state in which the counters of a Node are zero. -/
def restarted (w : UsageSystem) (nodeId : String) (initialized : Bool) : UsageSystem :=
  { w with
    hub := rezeroed w.hub nodeId initialized
    marks := fun k =>
      if k.1 = nodeId then (w.marks k).rebased (w.hub.seqOf k) else w.marks k }

/-- Counters that begin again from zero keep the invariant. -/
theorem Inv.restarted (h : w.Inv digest) (nodeId : String) (initialized : Bool) :
    (w.restarted nodeId initialized).Inv digest := by
  refine h.rebased (h.rebased_rezeroed nodeId initialized) (fun _ _ hk => hk) (fun k => ?_) fun k => ?_
  · simp only [UsageSystem.restarted]
    split <;> rfl
  · by_cases hk : k.1 = nodeId
    · refine .inl ⟨⟨(w.marks k).resetSeq, ?_⟩, fun r hr => rezeroed_raw hk hr⟩
      simp only [UsageSystem.restarted, if_pos hk]
      rfl
    · refine .inr (.inl ⟨?_, rezeroed_other hk⟩)
      simp only [UsageSystem.restarted, if_neg hk]

/-- Changes of the assignments keep the invariant. -/
theorem Inv.assigned (h : w.Inv digest) (hnodes : ∀ n ∈ w.nodes, n ∈ w'.nodes)
    (hmarks : w'.marks = w.marks) (husage : w'.hub.usage = w.hub.usage)
    (hledger : w'.hub.trafficLedger = w.hub.trafficLedger) (hclients : w'.hub.clients = w.hub.clients)
    (hmanaged : ∀ e m, w'.hub.managedClients.get? e = some m →
      ∃ m', w.hub.managedClients.get? e = some m' ∧ m.lastUp = m'.lastUp ∧ m.lastDown = m'.lastDown)
    (hknown : ∀ e, (w.hub.managedClients.get? e).isSome = true →
      (w'.hub.managedClients.get? e).isSome = true) : w'.Inv digest := by
  have hpairs : ∀ k, w.Pairs k → w'.Pairs k := fun k hk => ⟨hnodes _ hk.1, hknown _ hk.2⟩
  refine h.rebased ⟨fun k r hr => ?_, fun k => ?_, fun e => ?_, hledger, hclients, hmanaged⟩
    (fun k _ => hpairs k) (fun k => by rw [hmarks]) fun k => .inr (.inl ⟨by rw [hmarks], by rw [husage]⟩)
  · rw [husage] at hr
    obtain ⟨hk, hpos⟩ := h.books.rows k r hr
    refine ⟨hpairs k hk, fun way => ⟨(hpos way).1, ?_⟩⟩
    rw [hr]
    rfl
  · rw [Hub.seqOf, husage, Hub.seqOf]
  · rw [Hub.remote, husage, Hub.remote]

/-- A replaced installation keeps the invariant. -/
theorem Inv.replace (h : w.Inv digest) (nodeId : String) :
    Tx.wp (replace nodeId) (fun _ t => t.Inv digest) (fun _ t => t = w) w := by
  simp only [UsageSystem.replace, demandPolicy, Tx.wp_bind, Tx.wp_read, Tx.wp_require, Tx.wp_write,
    decide_eq_true_eq]
  refine ⟨fun hnode => ?_, fun _ => trivial⟩
  have hzero := h.restarted nodeId true
  have hserved : ∀ e ∈ w.hub.allowedTrafficClients nodeId,
      (w.restarted nodeId true).Pairs (nodeId, e) :=
    fun e he => ⟨hnode, mem_allowedTrafficClients he⟩
  have hseed := hzero.books.seed hserved
  refine hzero.rebased ⟨hseed.rows, hseed.seqOf, hseed.remote, rfl, rfl, hseed.managed⟩
    (fun _ _ hk => hk) (fun _ => rfl) fun k => ?_
  change _ ∨ (_ ∧ (seedRows nodeId (w.hub.allowedTrafficClients nodeId) _).get? k = _) ∨ _
  by_cases hk : k.1 = nodeId
  · refine .inl ⟨⟨(w.marks k).resetSeq, ?_⟩, fun r hr way => ?_⟩
    · have hseq := (h.rebased_rezeroed nodeId true).seqOf k
      simp only [UsageSystem.restarted, if_pos hk, hseq]
      rfl
    · have hrow : (seedRows nodeId (w.hub.allowedTrafficClients nodeId)
          (w.restarted nodeId true).hub.usage).get? k = some r := hr
      rw [get?_seedRows] at hrow
      split at hrow
      · cases hold : (w.restarted nodeId true).hub.usage.get? k with
        | none =>
            rw [hold, Option.getD_none, Option.some.injEq] at hrow
            subst hrow
            cases way <;> rfl
        | some row =>
            rw [hold, Option.getD_some] at hrow
            rw [hrow] at hold
            exact rezeroed_raw hk hold way
      · exact rezeroed_raw hk hrow way
  · refine .inr (.inl ⟨rfl, ?_⟩)
    rw [get?_seedRows, if_neg fun h => hk h.1]
    rfl

/-- An assignment changes the assignments only. -/
theorem assign_frame (nodeId : String) (h : Hub) (inboundId : ℤ) :
    ∃ nodeInbounds, h.assign nodeId inboundId = { h with nodeInbounds := nodeInbounds } := by
  unfold Hub.assign
  split
  · exact ⟨h.nodeInbounds, rfl⟩
  · exact ⟨_, rfl⟩

theorem assign_foldl_frame (nodeId : String) (inboundIds : List ℤ) (h : Hub) :
    ∃ nodeInbounds, inboundIds.foldl (fun h id => h.assign nodeId id) h =
      { h with nodeInbounds := nodeInbounds } := by
  induction inboundIds generalizing h with
  | nil => exact ⟨h.nodeInbounds, rfl⟩
  | cons id inboundIds ih =>
      obtain ⟨nodeInbounds, hfirst⟩ := assign_frame nodeId h id
      obtain ⟨nodeInbounds', hrest⟩ := ih (h.assign nodeId id)
      refine ⟨nodeInbounds', ?_⟩
      rw [List.foldl_cons, hrest, hfirst]

/-- An assignment keeps the invariant. -/
theorem Inv.setInboundAssignment (h : w.Inv digest) (nodeId : String) (inboundId : ℤ)
    (assigned : Bool) :
    Tx.wp (setInboundAssignment nodeId inboundId assigned) (fun _ t => t.Inv digest)
      (fun _ t => t = w) w := by
  simp only [UsageSystem.setInboundAssignment, demandPolicy, Tx.wp_bind, Tx.wp_read, Tx.wp_require,
    Tx.wp_write]
  refine ⟨fun _ => ⟨fun _ => ?_, fun _ => trivial⟩, fun _ => trivial⟩
  cases assigned with
  | true =>
      obtain ⟨nodeInbounds, hframe⟩ := assign_frame nodeId w.hub inboundId
      rw [if_pos rfl, hframe]
      exact h.assigned (fun _ hn => hn) rfl rfl rfl rfl (fun e m hm => ⟨m, hm, rfl, rfl⟩) fun _ he => he
  | false =>
      rw [if_neg Bool.false_ne_true]
      exact h.assigned (fun _ hn => hn) rfl rfl rfl rfl (fun e m hm => ⟨m, hm, rfl, rfl⟩) fun _ he => he

/-- Registering a Node keeps the invariant. -/
theorem Inv.put (h : w.Inv digest) (nodeId : String) (inboundIds : List ℤ) (moved : Bool) :
    Tx.wp (put nodeId inboundIds moved) (fun _ t => t.Inv digest) (fun _ t => t = w) w := by
  have hregistered : ∀ {v : UsageSystem}, v.Inv digest → UsageSystem.Inv digest { v with
      nodes := if nodeId ∈ v.nodes then v.nodes else nodeId :: v.nodes
      hub := (inboundIds.foldl (fun h id => h.assign nodeId id) v.hub).unassign nodeId
        fun id => id ∉ inboundIds } := by
    intro v hv
    obtain ⟨nodeInbounds, hframe⟩ := assign_foldl_frame nodeId inboundIds v.hub
    rw [hframe]
    refine hv.assigned (fun n hn => ?_) rfl rfl rfl rfl (fun e m hm => ⟨m, hm, rfl, rfl⟩) fun _ he => he
    dsimp only
    split
    · exact hn
    · exact List.mem_cons_of_mem _ hn
  simp only [UsageSystem.put, demandPolicy, Tx.wp_bind, Tx.wp_read, Tx.wp_require, Tx.wp_when,
    Tx.wp_write]
  refine ⟨fun _ => ⟨fun _ => ⟨fun _ => ?_, fun _ => ?_⟩, fun _ => trivial⟩, fun _ => trivial⟩
  · exact hregistered (h.restarted nodeId false)
  · exact hregistered h

/-- A Node that is deleted has counted nothing. -/
theorem Inv.delete (h : w.Inv digest) (nodeId : String) :
    Tx.wp (delete nodeId) (fun _ t => t.Inv digest) (fun _ t => t = w) w := by
  simp only [UsageSystem.delete, demandPolicy, Tx.wp_transaction, Tx.wp_bind, Tx.wp_read,
    Tx.wp_require, Tx.wp_write, not_or, Bool.not_eq_true]
  refine ⟨fun hunused => ⟨fun _ => ?_, fun _ => trivial⟩, fun _ => trivial⟩
  have hempty : ∀ k r, k.1 = nodeId → w.hub.usage.get? k = some r →
      (∀ way, r.current way = 0) ∧ r.seq = 0 := by
    intro k r hk hr
    have hnone := List.any_eq_false.mp hunused.2 (k, r) (Table.get?_eq_some_iff.mp hr)
    simp only [hk, decide_true, Bool.true_and, Bool.or_eq_true, decide_eq_true_eq, not_or,
      not_lt] at hnone
    have hpos := (h.books.rows k r hr).2
    have hseq := (h.books.marked k).1.trans (h.books.marked k).2
    rw [Hub.seqOf_of_some hr] at hseq
    refine ⟨fun way => le_antisymm ?_ (hpos way).2, le_antisymm hnone.2 hseq⟩
    cases way
    · exact hnone.1.1
    · exact hnone.1.2
  have hget : ∀ k, (w.hub.usage.filterRows fun k _ => k.1 ≠ nodeId).get? k =
      if k.1 = nodeId then none else w.hub.usage.get? k := by
    intro k
    rw [Table.get?_filterRows]
    cases w.hub.usage.get? k with
    | none => simp
    | some r => by_cases hk : k.1 = nodeId <;> simp [hk]
  have hseq : ∀ k, k.1 = nodeId → w.hub.seqOf k = 0 := by
    intro k hk
    cases hr : w.hub.usage.get? k with
    | none => simp [Hub.seqOf, hr]
    | some r => rw [Hub.seqOf_of_some hr, (hempty k r hk hr).2]
  refine h.rebased ⟨fun k r hr => ?_, fun k => ?_, fun e => ?_, rfl, rfl, fun e m hm => ⟨m, hm, rfl, rfl⟩⟩
    (fun k hpos hk => ?_) (fun k => ?_) fun k => ?_
  · dsimp only at hr
    rw [hget] at hr
    split at hr <;> rename_i hk
    · cases hr
    · obtain ⟨hpairs, hpos⟩ := h.books.rows k r hr
      refine ⟨⟨List.mem_filter.mpr ⟨hpairs.1, decide_eq_true hk⟩, hpairs.2⟩, fun way => ?_⟩
      rw [hr]
      exact ⟨(hpos way).1, rfl⟩
  · rw [Hub.seqOf]
    dsimp only
    rw [hget]
    split <;> rename_i hk
    · rw [hseq k hk]
      rfl
    · rfl
  · simp only [Hub.remote]
    refine Table.total_filterRows fun k r hr hk => ?_
    rw [decide_eq_false_iff_not, not_not] at hk
    have hzero := (hempty k r hk (Table.get?_eq_some_iff.mpr hr)).1
    have hup := hzero .up
    have hdown := hzero .down
    simp only [UsageRow.current] at hup hdown
    rw [hup, hdown, add_zero, ite_self]
  · have hother : k.1 ≠ nodeId := by
      intro hk'
      rw [hseq k hk'] at hpos
      exact lt_irrefl _ hpos
    exact ⟨List.mem_filter.mpr ⟨hk.1, decide_eq_true hother⟩, hk.2⟩
  · dsimp only
    split <;> rename_i hk
    · have hmark := h.books.marked k
      rw [hseq k hk] at hmark
      exact (le_antisymm hmark.2 hmark.1).symm
    · rfl
  · dsimp only
    rw [hget]
    by_cases hk : k.1 = nodeId
    · rw [if_pos hk, if_pos hk]
      exact .inr (.inr ⟨rfl, rfl⟩)
    · rw [if_neg hk, if_neg hk]
      exact .inr (.inl ⟨rfl, rfl⟩)

/-- Every step keeps the books. -/
theorem Inv.step {event : UsageEvent} (h : w.Inv digest) (hsep : w.NoCollision digest) :
    (w.next digest event).Inv digest := by
  have hwp : Tx.wp (handle digest event) (fun _ t => t.Inv digest) (fun _ t => t.Inv digest) w := by
    cases event with
    | snapshot nodeId items initializeAbsent =>
        simp only [handle, Tx.wp_bind, Tx.wp_pure]
        refine Tx.wp_mono (h.snapshot hsep nodeId items initializeAbsent) (fun _ _ ht => ht.1) ?_
        rintro _ t ⟨_, rfl⟩
        exact h
    | resetClientTraffic answer clientId resetId =>
        simp only [handle, Tx.wp_bind, Tx.wp_pure]
        exact Tx.wp_mono (h.resetClientTraffic hsep answer clientId resetId) (fun _ _ ht => ht)
          fun _ _ ht => ht.1
    | settle nodeId clientId =>
        refine Tx.wp_mono (h.settle nodeId clientId) (fun _ _ ht => ht.1) ?_
        rintro _ t ⟨_, rfl⟩
        exact h
    | replace nodeId =>
        refine Tx.wp_mono (h.replace nodeId) (fun _ _ ht => ht) ?_
        rintro _ t rfl
        exact h
    | setInboundAssignment nodeId inboundId assigned =>
        refine Tx.wp_mono (h.setInboundAssignment nodeId inboundId assigned) (fun _ _ ht => ht) ?_
        rintro _ t rfl
        exact h
    | put nodeId inboundIds moved =>
        refine Tx.wp_mono (h.put nodeId inboundIds moved) (fun _ _ ht => ht) ?_
        rintro _ t rfl
        exact h
    | deployed nodeId inboundId remoteId =>
        exact h.assigned (fun _ hn => hn) rfl rfl rfl rfl (fun e m hm => ⟨m, hm, rfl, rfl⟩)
          fun _ he => he
    | attach clientId inbounds =>
        refine h.assigned (fun _ hn => hn) rfl rfl rfl rfl (fun e m hm => ?_) fun e he => ?_
        · dsimp only at hm
          rw [Table.get?_update] at hm
          split at hm
          · obtain ⟨m', hm', rfl⟩ := Option.map_eq_some_iff.mp hm
            exact ⟨m', hm', rfl, rfl⟩
          · exact ⟨m, hm, rfl, rfl⟩
        · dsimp only
          rw [Table.get?_update]
          split
          · rwa [Option.isSome_map]
          · exact he
    | delete nodeId =>
        refine Tx.wp_mono (h.delete nodeId) (fun _ _ ht => ht) ?_
        rintro _ t rfl
        exact h
  revert hwp
  unfold Tx.wp next
  rcases handle digest event w with ⟨_ | _, t⟩
  · exact id
  · exact id

end Steps

/-! ## Runs -/

section Runs

variable {digest : String → String} {s t : UsageSystem} {es : List UsageEvent}

/-- The invariant holds in the beginning. -/
theorem Start.inv (h : s.Start digest) : s.Inv digest := by
  have hnone : ∀ k, s.hub.usage.get? k = none := by
    intro k
    rw [h.usage]
    rfl
  have hseq : ∀ k, s.hub.seqOf k = 0 := by
    intro k
    simp [Hub.seqOf, hnone]
  have hremote : ∀ e, s.hub.remote e = 0 := by
    intro e
    rw [Hub.remote, h.usage]
    rfl
  constructor
  · refine ⟨fun k r hr => ?_, fun k => ?_, fun id r hid => .inl (h.ledger id r hid), fun k r hr => ?_,
      fun e m c hm hc => ?_⟩
    · rw [hnone] at hr
      cases hr
    · rw [h.marks, hseq]
      exact ⟨le_refl 0, le_refl 0⟩
    · rw [hnone] at hr
      cases hr
    · rw [hremote, add_zero]
      exact h.used e m c hm hc
  · refine ⟨fun k r hr => ?_, fun k => ?_, fun k r hr => ?_⟩
    · rw [hnone] at hr
      cases hr
    · rw [h.marks, hseq]
      exact ⟨le_refl 0, le_refl 0⟩
    · rw [hnone] at hr
      cases hr

/-- Every run keeps the books. -/
theorem Inv.run (h : s.Inv digest)
    (hrun : Run (Guarded (Step digest) fun w _ => w.NoCollision digest) s es t) : t.Inv digest := by
  refine hrun.invariant h ?_
  rintro w event w' hw ⟨rfl, hsep⟩
  exact hw.step hsep

/-- After every run in which no two shortened hashes collide: no import meets a taken event
id; the totals of a row are its ledger entries since its last reset; it stores what was
reported last; while the reports only grow, the entries since its baseline are what was
reported beyond it; the used bytes of a client are its local bytes and its totals on all
Nodes; and an import that raises changes nothing. -/
theorem ledgers_agree (hstart : s.Start digest)
    (hrun : Run (Guarded (Step digest) fun w _ => w.NoCollision digest) s es t)
    (hlast : t.NoCollision digest) :
    (∀ nodeId items initializeAbsent,
      (snapshot digest nodeId items initializeAbsent t).1 ≠ .error .integrityError) ∧
    (∀ answer clientId resetId, (∀ nodeId, answer nodeId ≠ .error .integrityError) →
      (resetClientTraffic digest answer clientId resetId t).1 ≠ .error .integrityError) ∧
    (∀ k row way, t.hub.usage.get? k = some row →
      row.current way = t.hub.entered digest k way (t.marks k).resetSeq row.seq ∧
      row.raw way = (t.marks k).reported way ∧
      (row.initialized = true → (t.marks k).grown = true →
        t.hub.entered digest k way (t.marks k).baseSeq row.seq =
          row.raw way - (t.marks k).base way)) ∧
    (∀ e m c, t.hub.managedClients.get? e = some m → t.hub.clients.get? e = some c →
      c.usedBytes = m.lastUp + m.lastDown + t.hub.remote e) ∧
    (∀ nodeId items initializeAbsent f t',
      snapshot digest nodeId items initializeAbsent t = (.error f, t') → t' = t) := by
  have hinv := hstart.inv.run hrun
  refine ⟨fun nodeId items initializeAbsent heq => ?_, fun answer clientId resetId hanswer heq => ?_,
    fun k row way hrow => ⟨?_, ?_, ?_⟩, hinv.books.used, fun nodeId items initializeAbsent f t' heq => ?_⟩
  · have hsnapshot := hinv.snapshot hlast nodeId items initializeAbsent
    exact (Tx.wp_error hsnapshot (Prod.ext heq rfl)).1 rfl
  · have hreset := hinv.resetClientTraffic hlast answer clientId resetId
    exact (Tx.wp_error hreset (Prod.ext heq rfl)).2 hanswer rfl
  · exact hinv.books.balanced k row hrow way
  · exact hinv.marked.reported k row hrow way
  · exact fun hinit hgrown => hinv.marked.telescoped k row hrow hinit hgrown way
  · exact (Tx.wp_error (hinv.snapshot hlast nodeId items initializeAbsent) heq).2

/-- One client, and no Node yet. -/
def oneClient : UsageSystem where
  hub :=
    { nodeInbounds := []
      managedClients := Table.empty.insert "client" ⟨some [1], false, 40, 2⟩
      clients := Table.empty.insert "client" ⟨"owner", 42⟩
      periods := Table.empty.insert "owner" 0
      usage := .empty
      trafficLedger := .empty }
  nodes := []
  retired := []
  marks := fun _ => .zero

/-- The Node reports 100, then 160 and 30, is reset at 175, replaced, and reports 20. -/
def meteredNode : List UsageEvent :=
  [.put "node" [1] false, .snapshot "node" [.item (.str "client") (.int 100) (.int 0)] false,
    .snapshot "node" [.item (.str "client") (.int 160) (.int 30)] true,
    .deployed "node" 1 7,
    .resetClientTraffic (fun _ => .ok (175, 30)) "client" "reset-1.",
    .replace "node", .snapshot "node" [.item (.str "client") (.int 20) (.int 1)] false,
    .delete "node"]

/-- There is one client and at most one Node. -/
def oneRow (w : UsageSystem) : Bool :=
  w.nodes.all (fun n => n = "node") && w.hub.managedClients.rows.all fun r => r.1 = "client"

/-- With one Node and one client no events of different rows collide. -/
theorem noCollision_of_oneRow {w : UsageSystem} (h : w.oneRow = true) : w.NoCollision digest := by
  have honly : ∀ k, w.Pairs k → k = ("node", "client") := by
    rintro k ⟨hnode, hclient⟩
    simp only [oneRow, Bool.and_eq_true, List.all_eq_true, decide_eq_true_eq] at h
    obtain ⟨m, hm⟩ := Option.isSome_iff_exists.mp hclient
    exact Prod.ext (h.1 _ hnode) (h.2 _ (Table.get?_eq_some_iff.mp hm))
  intro j k hj hk _
  rw [honly j hj, honly k hk]

theorem ledgers_agree_meteredNode : ∃ t : UsageSystem, ∃ row,
    t.hub.usage.get? ("node", "client") = some row ∧ row.seq = 3 ∧ row.current .up = 20 ∧
      row.current .up = t.hub.entered id ("node", "client") .up
        (t.marks ("node", "client")).resetSeq row.seq := by
  have heval : (meteredNode.foldlM (fun w event =>
      if w.oneRow = true then some (w.next id event) else none) oneClient).map
      (fun t => (t.oneRow, t.hub.usage.get? ("node", "client"))) =
        some (true, some ⟨20, 1, 20, 1, 3, true⟩) := by
    decide +kernel
  obtain ⟨t, hrun, ht⟩ := Option.map_eq_some_iff.mp heval
  rw [Prod.mk.injEq] at ht
  have hsteps : Run (Guarded (Step id) fun w _ => w.NoCollision id) oneClient meteredNode t := by
    have hguarded : Run (Guarded (fun w event w' => some (w.next id event) = some w')
        fun w _ => w.oneRow = true) oneClient meteredNode t := Run.of_guarded_eval hrun
    refine hguarded.mono ?_
    rintro w event w' ⟨hstep, hone⟩
    exact ⟨Option.some.inj hstep, noCollision_of_oneRow hone⟩
  have hstart : oneClient.Start id := by
    refine ⟨rfl, fun id r hid => ?_, fun e m c hm hc => ?_, fun _ => rfl⟩
    · cases hid
    · have hclient : (e, m) ∈ [("client", (⟨some [1], false, 40, 2⟩ : ManagedClient))] :=
        Table.get?_eq_some_iff.mp hm
      have hused : (e, c) ∈ [("client", (⟨"owner", 42⟩ : MeteredClient))] :=
        Table.get?_eq_some_iff.mp hc
      rw [List.mem_singleton, Prod.mk.injEq] at hclient hused
      rw [hclient.2, hused.2]
      rfl
  have hagree := ledgers_agree hstart hsteps (noCollision_of_oneRow ht.1)
  exact ⟨t, _, ht.2, rfl, rfl, (hagree.2.2.1 _ _ .up ht.2).1⟩

end Runs

end UsageSystem

end Nodes
end DarkXray
