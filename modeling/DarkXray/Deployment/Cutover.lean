import Mathlib.Data.List.MinMax
import Mathlib.Data.List.Sort
import DarkXray.Core.Sections

/-!
# Moving the advertised hosts to a replacement

{lit}`ReplacementActivation._direct_host_cutover`: the plan that lets the hosts of a Node
name its replacement when that goes live, and what {lit}`_finish` stores of it.  The code
edits the section once for every assigned inbound; all edits together are one pass over
the section.

Main results:

- Theorem {lit}`cutInbound_hosts`: what the edit for one inbound makes of every host.
- Theorem {lit}`directHostCutover_hosts`: the plan is one pass over the section, followed by
  the new hosts.
-/

namespace DarkXray
namespace Deployment

open Library Core

/-! ## Records -/

/-- The name of a Node, whose length the registry bounds. -/
structure NodeName where
  text : String
  length_le : text.length ≤ 128

/-- The id of a Node: the characters that the registry admits. -/
structure NodeId where
  text : String
  valid : runtimeRe ("node:" ++ text) = true
deriving DecidableEq

/-- The name of the runtime of a Node. -/
def NodeId.runtime (node : NodeId) : String :=
  "node:" ++ node.text

/-- The fields of a row of {lit}`remote_nodes` that the cutover reads. -/
structure AddressedNode where
  name : NodeName
  dataAddress : String

/-- A row of {lit}`remote_node_installations`.  {lit}`retiredAt` is zero while the
installation is in use; the address is the one in {lit}`retirement_json`, if that can be
read and has one. -/
structure InstallationRow where
  nodeId : NodeId
  retiredAt : ℕ
  dataAddress : Option String
deriving DecidableEq

/-- The tables that the cutover reads and writes. -/
structure CutoverStore where
  core : CoreStore
  nodes : Table NodeId AddressedNode
  assignments : Table (NodeId × ℕ) Unit
  installations : List InstallationRow

/-- The exceptions of the cutover. -/
inductive CutoverFault where
  | policyError (message : String)
  | typeError
deriving DecidableEq, Repr

/-- What is reported about an inbound. -/
inductive CutoverAction where
  | tunnelToDirect
  | addDirect
  | oldDirectIpToNewDirect
  | disableRetiredTunnel
  | clearRetiredTunnelPort
deriving DecidableEq, Repr

/-- One entry of {lit}`changes`. -/
structure CutoverChange where
  inboundId : ℕ
  action : CutoverAction
  address : String
  port : Port
  runtime : String
deriving DecidableEq

/-- The values that the edits for all inbounds share. -/
structure Handover where
  runtime : String
  address : String
  previous : String
  remark : String
deriving DecidableEq, Repr

/-! ## Hosts -/

/-- {lit}`host.get('runtime') == runtime and host.get('inboundId') == inbound_id`. -/
def isTarget (runtime : String) (id : ℕ) (host : Doc) : Bool :=
  (host.get? "runtime").bind Doc.str? = some runtime &&
    (host.get? "inboundId").bind Doc.norm? = some (.int id)

/-- {lit}`(host.get('endpointType', 'direct') or 'direct') == kind`. -/
def hasType (kind : String) (host : Doc) : Bool :=
  if host.truthyAt "endpointType" then (host.get? "endpointType").bind Doc.str? = some kind
  else kind = "direct"

/-- {lit}`host.get('enable', True)`. -/
def isEnabled (host : Doc) : Bool :=
  (host.getD "enable" (.bool true)).truthy

/-- An enabled direct host of an inbound. -/
def isDirect (runtime : String) (id : ℕ) (host : Doc) : Bool :=
  isTarget runtime id host && (hasType "direct" host && isEnabled host)

/-- An enabled tunnel host of an inbound. -/
def isTunnel (runtime : String) (id : ℕ) (host : Doc) : Bool :=
  isTarget runtime id host && (hasType "tunnel" host && isEnabled host)

/-- A tunnel host becomes a direct one. -/
def toDirect (c : Handover) (port : Port) (host : Doc) : Doc :=
  (((((host.set "address" (.str c.address)).set "port" port.doc).set "endpointType"
    (.str "direct")).set "remark" (.str c.remark)).set "enable" (.bool true)).erase "addresses"

/-- The host of an inbound that has none. -/
def addedHost (c : Handover) (id : ℕ) (port : Port) : Doc :=
  .dict [("inboundId", .int id), ("runtime", .str c.runtime), ("address", .str c.address),
    ("port", port.doc), ("endpointType", .str "direct"), ("security", .str "same"),
    ("remark", .str c.remark), ("enable", .bool true)]

/-- The primary address of a host is the former address of the Node. -/
def isFormer (c : Handover) (host : Doc) : Bool :=
  c.previous ≠ "" && c.previous ≠ c.address &&
    (host.get? "address").bind Doc.str? = some c.previous

/-- The values of a list without repetition, as the keys of a dictionary. -/
def uniqueValues (items : List Doc) : List Doc :=
  items.foldl (fun seen d => if seen.any fun e => e.norm? = d.norm? then seen else seen ++ [d]) []

/-- {lit}`address if a == previous_address else a`. -/
def renewedEntry (c : Handover) (entry : Doc) : Doc :=
  if entry.str? = some c.previous then .str c.address else entry

/-- A host at the former address moves to the new one. -/
def movedHost (c : Handover) (port : Port) (host : Doc) : Doc :=
  let host := host.set "address" (.str c.address)
  let host := ((host.get? "addresses").bind Doc.list?).elim host fun entries =>
    host.set "addresses" (.list (uniqueValues (entries.map (renewedEntry c))))
  host.set "port" port.doc

/-- The addresses of a host can be the keys of a dictionary. -/
def hashable (host : Doc) : Bool :=
  (host.itemsAt "addresses").all fun entry => entry.norm?.isSome

/-- The hosts after the first two branches of the loop, and what is reported of them. -/
def openInbound (c : Handover) (id : ℕ) (port : Port) (hosts : List Doc) :
    List Doc × List CutoverAction :=
  if !hosts.any (isDirect c.runtime id) && hosts.any (isTunnel c.runtime id) then
    (hosts.replaceF fun host =>
      if isTunnel c.runtime id host then some (toDirect c port host) else none, [.tunnelToDirect])
  else if !hosts.any (isDirect c.runtime id) && !hosts.any (isTarget c.runtime id) then
    (hosts ++ [addedHost c id port], [.addDirect])
  else (hosts, [])

/-- A direct host of an inbound that has to move. -/
def mustMove (c : Handover) (id : ℕ) (host : Doc) : Bool :=
  isDirect c.runtime id host && isFormer c host

/-- The third branch of the loop, for one host. -/
def moveFormer (c : Handover) (id : ℕ) (port : Port) (host : Doc) : Doc :=
  if mustMove c id host then movedHost c port host else host

/-- The last loop over the hosts, for one of them. -/
def disableTunnel (runtime : String) (id : ℕ) (host : Doc) : Doc :=
  if isTunnel runtime id host then host.set "enable" (.bool false) else host

/-- The edit of the hosts for one inbound.  A host that has just been opened is at the new
address, so that the search for direct hosts may include it. -/
def cutInbound (c : Handover) (id : ℕ) (port : Port) (hosts : List Doc) :
    Except CutoverFault (List Doc × List CutoverAction) :=
  let opened := openInbound c id port hosts
  if opened.1.any fun host => mustMove c id host && !hashable host then .error .typeError
  else
    let moved := opened.1.map (moveFormer c id port)
    .ok (moved.map (disableTunnel c.runtime id),
      opened.2 ++ List.replicate (opened.1.countP (mustMove c id)) .oldDirectIpToNewDirect ++
        List.replicate (moved.countP (isTunnel c.runtime id)) .disableRetiredTunnel)

/-! ## The plan -/

/-- The inbound without the tunnel port of a runtime, if it has one. -/
def clearTunnelPort (runtime : String) (v : Inbound) : Option Inbound :=
  (v.panelMeta.get? "tunnelPorts").bind fun ports =>
    if (ports.get? runtime).isSome then
      some { v with panelMeta := v.panelMeta.set "tunnelPorts" (ports.erase runtime) }
    else none

/-- {lit}`hosts`, {lit}`inbound_changes` and {lit}`changes`. -/
structure CutoverPlan where
  hosts : List Doc
  inboundChanges : List (ℕ × Inbound)
  changes : List CutoverChange

/-- One round of the loop; a stored inbound has a valid port. -/
def cutAssigned (c : Handover) (inbounds : Table ℕ Inbound) (plan : CutoverPlan) (id : ℕ) :
    Except CutoverFault CutoverPlan := do
  let v ← (inbounds.get? id).elim (.error (.policyError "Replacement inbound is missing")) .ok
  let cut ← cutInbound c id v.port plan.hosts
  let cleared := clearTunnelPort c.runtime v
  let actions := cut.2 ++ cleared.elim [] fun _ => [.clearRetiredTunnelPort]
  pure {
    hosts := cut.1
    inboundChanges := plan.inboundChanges ++ cleared.elim [] fun v => [(id, v)]
    changes := plan.changes ++ actions.map fun action =>
      { inboundId := id, action, address := c.address, port := v.port, runtime := c.runtime } }

/-- The ids of the inbounds that are assigned to a Node, in order. -/
def CutoverStore.assigned (s : CutoverStore) (node : NodeId) : List ℕ :=
  ((s.assignments.rows.filter fun row => row.1.1 = node).map fun row => row.1.2).insertionSort
    (· ≤ ·)

/-- The address in the last retirement record of a Node. -/
def CutoverStore.previousAddress (s : CutoverStore) (node : NodeId) : String :=
  (((s.installations.filter fun r => r.nodeId = node && 0 < r.retiredAt).argmax
    InstallationRow.retiredAt).bind InstallationRow.dataAddress).getD ""

/-- What the hosts of a Node are handed over to. -/
def CutoverStore.handover (py : Builtins) (s : CutoverStore) (node : NodeId)
    (record : AddressedNode) : Handover where
  runtime := node.runtime
  address := py.strip record.dataAddress
  previous := s.previousAddress node
  remark := record.name.text ++ " · Direct"

/-- {lit}`_direct_host_cutover`. -/
def directHostCutover (py : Builtins) (s : CutoverStore) (node : NodeId) :
    Except CutoverFault CutoverPlan := do
  let record ← (s.nodes.get? node).elim (.error (.policyError "Replacement Node not found")) .ok
  ensure (py.strip record.dataAddress ≠ "")
    (.policyError "Replacement Direct address is missing")
  (s.assigned node).foldlM (cutAssigned (s.handover py node record) s.core.inbounds)
    { hosts := s.core.hosts, inboundChanges := [], changes := [] }

/-- What {lit}`_finish` stores of a plan; to store the section that is there already changes
nothing. -/
def CutoverStore.carryOut (s : CutoverStore) (plan : CutoverPlan) : CutoverStore :=
  { s with
    core := { s.core with
      hosts := plan.hosts
      inbounds := plan.inboundChanges.foldl (fun t row => t.update row.1 fun _ => row.2)
        s.core.inbounds } }

/-- The cutover of a Node: the plan is made and stored. -/
def cutover (py : Builtins) (s : CutoverStore) (node : NodeId) :
    Except CutoverFault CutoverStore :=
  (directHostCutover py s node).map s.carryOut

/-! ## Edited hosts -/

section Hosts

variable {c : Handover} {runtime : String} {id id' : ℕ} {port : Port} {host : Doc}

/-- A host of an inbound is a dictionary. -/
theorem isDict_of_isTarget (h : isTarget runtime id host = true) : host.isDict = true := by
  unfold isTarget at h
  rw [Bool.and_eq_true, decide_eq_true_iff, Doc.bind_str?_iff] at h
  exact Doc.isDict_of_get? h.1

/-- A host belongs to one inbound. -/
theorem isTarget_unique (h : isTarget runtime id host = true)
    (h' : isTarget runtime id' host = true) : id = id' := by
  unfold isTarget at h h'
  rw [Bool.and_eq_true, decide_eq_true_iff, decide_eq_true_iff] at h h'
  have hid : (Atom.int id) = .int id' := Option.some.inj (h.2.symm.trans h'.2)
  exact Int.ofNat.inj (Atom.int.inj hid)

/-- What a host belongs to is told by two fields. -/
theorem isTarget_congr {host' : Doc} (hruntime : host'.get? "runtime" = host.get? "runtime")
    (hid : host'.get? "inboundId" = host.get? "inboundId") :
    isTarget runtime id host' = isTarget runtime id host := by
  unfold isTarget
  rw [hruntime, hid]

/-- The type of a host is read from its field. -/
theorem hasType_of_get? {kind kind' : String} (hne : kind ≠ "")
    (h : host.get? "endpointType" = some (.str kind)) : hasType kind' host = decide (kind = kind') := by
  have htrue : (Doc.str kind).truthy = true := decide_eq_true hne
  have htruthy : host.truthyAt "endpointType" = true := by
    rw [Doc.truthyAt, h]
    exact htrue
  rw [hasType, if_pos htruthy, h]
  simp [Doc.str?, Doc.str]

/-- A host has one type. -/
theorem hasType_tunnel (h : hasType "direct" host = true) : hasType "tunnel" host = false := by
  unfold hasType at h ⊢
  split at h
  · rename_i htruthy
    rw [if_pos htruthy, decide_eq_false_iff_not]
    rw [decide_eq_true_iff] at h
    rw [h]
    decide
  · rename_i htruthy
    rw [if_neg htruthy]
    decide

/-- A direct host is no tunnel host. -/
theorem isTunnel_of_isDirect (h : isDirect runtime id host = true) :
    isTunnel runtime id host = false := by
  simp only [isDirect, Bool.and_eq_true] at h
  simp [isTunnel, hasType_tunnel h.2.1]

/-- A direct host of an inbound is a host of it. -/
theorem isTarget_of_isDirect (h : isDirect runtime id host = true) :
    isTarget runtime id host = true :=
  (Bool.and_eq_true _ _ |>.mp h).1

/-- A tunnel host of an inbound is a host of it. -/
theorem isTarget_of_isTunnel (h : isTunnel runtime id host = true) :
    isTarget runtime id host = true :=
  (Bool.and_eq_true _ _ |>.mp h).1

/-- The fields of a host that becomes direct. -/
theorem get?_toDirect (hd : host.isDict = true) (key : String) :
    (toDirect c port host).get? key =
      if "addresses" = key then none
      else if "enable" = key then some (.bool true)
      else if "remark" = key then some (.str c.remark)
      else if "endpointType" = key then some (.str "direct")
      else if "port" = key then some port.doc
      else if "address" = key then some (.str c.address)
      else host.get? key := by
  unfold toDirect
  rw [Doc.get?_erase, Doc.get?_set (by simpa only [Doc.isDict_set] using hd),
    Doc.get?_set (by simpa only [Doc.isDict_set] using hd),
    Doc.get?_set (by simpa only [Doc.isDict_set] using hd),
    Doc.get?_set (by simpa only [Doc.isDict_set] using hd), Doc.get?_set hd]

/-- The fields of a host that moves. -/
theorem get?_movedHost (hd : host.isDict = true) (key : String) :
    (movedHost c port host).get? key =
      if "port" = key then some port.doc
      else if "addresses" = key then
        (host.get? "addresses").map fun d => d.list?.elim d fun entries =>
          .list (uniqueValues (entries.map (renewedEntry c)))
      else if "address" = key then some (.str c.address)
      else host.get? key := by
  have hset : (host.set "address" (.str c.address)).isDict = true := by
    rw [Doc.isDict_set, hd]
  have hread : (host.set "address" (.str c.address)).get? "addresses" = host.get? "addresses" :=
    Doc.get?_set_of_ne host (by decide) _
  simp only [movedHost, hread]
  cases hlist : (host.get? "addresses").bind Doc.list? with
  | none =>
      rw [Option.elim_none, Doc.get?_set hset, Doc.get?_set hd]
      by_cases haddresses : "addresses" = key
      · subst haddresses
        cases hfield : host.get? "addresses" with
        | none => simp
        | some d =>
            rw [hfield, Option.bind_some] at hlist
            simp [hlist]
      · rw [if_neg haddresses]
  | some entries =>
      rw [Option.elim_some, Doc.get?_set (by rw [Doc.isDict_set, hset]), Doc.get?_set hset,
        Doc.get?_set hd, Doc.bind_list?_iff.mp hlist]
      rfl

/-! ## Positions -/

/-- A list that nothing changes. -/
theorem mapIdx_self {α : Type} (l : List α) : l.mapIdx (fun _ a => a) = l := by
  simp [List.mapIdx_eq_iff]

/-- The first match of a list is the one without a match in front of it. -/
theorem replaceF_eq_mapIdx {α : Type} (p : α → Bool) (f : α → α) (l : List α) :
    (l.replaceF fun a => if p a then some (f a) else none) =
      l.mapIdx fun j a => if p a && !(l.take j).any p then f a else a := by
  induction l with
  | nil => rfl
  | cons a l ih =>
      rw [List.mapIdx_cons, List.replaceF_cons]
      by_cases ha : p a = true
      · simp [ha, List.mapIdx_eq_zipIdx_map]
      · simp [ha, ih]

/-- A test that a position-wise change keeps is kept on every initial part. -/
theorem any_take_mapIdx {α : Type} {q : α → Bool} {f : ℕ → α → α} {l : List α}
    (h : ∀ j a, q (f j a) = q a) (j : ℕ) : ((l.mapIdx f).take j).any q = (l.take j).any q := by
  induction l generalizing f j with
  | nil => rfl
  | cons a l ih =>
      rw [List.mapIdx_cons]
      cases j with
      | zero => rfl
      | succ j =>
          rw [List.take_succ_cons, List.take_succ_cons, List.any_cons, List.any_cons, h,
            ih fun j a => h (j + 1) a]

/-- A search in a list whose items keep what is searched. -/
theorem any_mapIdx {α : Type} {q : α → Bool} {f : ℕ → α → α} {l : List α}
    (h : ∀ j a, q (f j a) = q a) : (l.mapIdx f).any q = l.any q := by
  have htake := any_take_mapIdx (l := l) h l.length
  rwa [List.take_of_length_le (by rw [List.length_mapIdx]), List.take_length] at htake

/-! ## One inbound -/

/-- What becomes of a host of an inbound; {lit}`before` are the hosts in front of it. -/
def cutHost (c : Handover) (id : ℕ) (port : Port) (hosts before : List Doc) (host : Doc) : Doc :=
  if isTunnel c.runtime id host &&
      !(hosts.any (isDirect c.runtime id) || before.any (isTunnel c.runtime id)) then
    toDirect c port host
  else disableTunnel c.runtime id (moveFormer c id port host)

/-- The new host of an inbound that has none. -/
def addedFor (c : Handover) (id : ℕ) (port : Port) (hosts : List Doc) : List Doc :=
  if hosts.any (isTarget c.runtime id) then [] else [addedHost c id port]

/-- A host that need not move stays. -/
theorem moveFormer_of_not (h : mustMove c id host = false) : moveFormer c id port host = host := by
  simp [moveFormer, h]

/-- A host that is no tunnel host stays. -/
theorem disableTunnel_of_not (h : isTunnel runtime id host = false) :
    disableTunnel runtime id host = host := by
  simp [disableTunnel, h]

/-- A host that becomes direct stays at its inbound. -/
theorem isTarget_toDirect (hd : host.isDict = true) :
    isTarget runtime id (toDirect c port host) = isTarget runtime id host := by
  refine isTarget_congr ?_ ?_
  · simp [get?_toDirect hd]
  · simp [get?_toDirect hd]

/-- A host that becomes direct is direct. -/
theorem hasType_toDirect (hd : host.isDict = true) (kind : String) :
    hasType kind (toDirect c port host) = decide ("direct" = kind) := by
  refine hasType_of_get? (by decide) ?_
  simp [get?_toDirect hd]

/-- A host that becomes direct is enabled. -/
theorem isEnabled_toDirect (hd : host.isDict = true) :
    isEnabled (toDirect c port host) = true := by
  have henable : (toDirect c port host).get? "enable" = some (.bool true) := by
    simp [get?_toDirect hd]
  rw [isEnabled, Doc.getD, henable]
  rfl

/-- A host at the new address does not move. -/
theorem isFormer_of_address (h : host.get? "address" = some (.str c.address)) :
    isFormer c host = false := by
  unfold isFormer
  rw [h]
  by_cases hne : c.previous = c.address
  · simp [hne]
  · simp [Doc.str, Doc.str?, Ne.symm hne]

/-- An opened host is not edited any further. -/
theorem edit_toDirect (hd : host.isDict = true) :
    disableTunnel c.runtime id (moveFormer c id port (toDirect c port host)) =
      toDirect c port host := by
  have hformer : isFormer c (toDirect c port host) = false :=
    isFormer_of_address (by simp [get?_toDirect hd])
  rw [moveFormer_of_not (by simp [mustMove, hformer])]
  refine disableTunnel_of_not ?_
  simp [isTunnel, hasType_toDirect hd]

/-- The inbound of a new host. -/
theorem isTarget_addedHost :
    isTarget runtime id' (addedHost c id port) = (decide (c.runtime = runtime) && decide (id = id')) := by
  have hruntime : (addedHost c id port).get? "runtime" = some (.str c.runtime) := rfl
  have hid : (addedHost c id port).get? "inboundId" = some (.int id) := rfl
  unfold isTarget
  rw [hruntime, hid]
  simp [Doc.str, Doc.str?, Doc.int, Doc.norm?, Atom.norm, Int.ofNat_inj]

/-- A new host is direct. -/
theorem hasType_addedHost (kind : String) :
    hasType kind (addedHost c id port) = decide ("direct" = kind) :=
  hasType_of_get? (by decide) rfl

/-- A new host is not edited any further. -/
theorem edit_addedHost :
    disableTunnel c.runtime id (moveFormer c id port (addedHost c id port)) =
      addedHost c id port := by
  have hformer : isFormer c (addedHost c id port) = false := isFormer_of_address rfl
  rw [moveFormer_of_not (by simp [mustMove, hformer])]
  refine disableTunnel_of_not ?_
  simp [isTunnel, hasType_addedHost]

/-- The hosts after the first two branches, one by one. -/
theorem openInbound_hosts (c : Handover) (id : ℕ) (port : Port) (hosts : List Doc) :
    (openInbound c id port hosts).1 = hosts.mapIdx (fun j host =>
      if isTunnel c.runtime id host &&
          !(hosts.any (isDirect c.runtime id) || (hosts.take j).any (isTunnel c.runtime id)) then
        toDirect c port host
      else host) ++ addedFor c id port hosts := by
  have htarget : ∀ q : Doc → Bool, (∀ host, q host = true → isTarget c.runtime id host = true) →
      hosts.any q = true → hosts.any (isTarget c.runtime id) = true := by
    intro q hq hany
    obtain ⟨host, hmem, hhost⟩ := List.any_eq_true.mp hany
    exact List.any_eq_true.mpr ⟨host, hmem, hq host hhost⟩
  unfold openInbound addedFor
  by_cases hdirect : hosts.any (isDirect c.runtime id) = true
  · have hany := htarget _ (fun _ => isTarget_of_isDirect) hdirect
    simp [hdirect, hany, mapIdx_self]
  · rw [Bool.not_eq_true] at hdirect
    by_cases htunnel : hosts.any (isTunnel c.runtime id) = true
    · have hany := htarget _ (fun _ => isTarget_of_isTunnel) htunnel
      simp only [hdirect, htunnel, hany, Bool.not_false, Bool.and_true, Bool.false_or, if_true,
        List.append_nil]
      exact replaceF_eq_mapIdx _ _ _
    · have hnone : ∀ host ∈ hosts, isTunnel c.runtime id host = false := by
        simpa using htunnel
      have hfirst : hosts.mapIdx (fun j host =>
          if isTunnel c.runtime id host && !(false || (hosts.take j).any (isTunnel c.runtime id))
          then toDirect c port host else host) = hosts := by
        rw [List.mapIdx_eq_iff]
        intro j
        cases hj : hosts[j]? with
        | none => rfl
        | some host => simp [hnone host (List.mem_of_getElem? hj)]
      rw [Bool.not_eq_true] at htunnel
      rw [hdirect, hfirst, htunnel]
      by_cases hany : hosts.any (isTarget c.runtime id) = true
      · simp [hany]
      · simp [hany]

/-- The edit for one inbound, host by host. -/
theorem cutInbound_hosts {hosts : List Doc} {out : List Doc × List CutoverAction}
    (h : cutInbound c id port hosts = .ok out) :
    out.1 = hosts.mapIdx (fun j host => cutHost c id port hosts (hosts.take j) host) ++
      addedFor c id port hosts := by
  unfold cutInbound at h
  dsimp only at h
  split at h
  · cases h
  · cases h
    dsimp only
    rw [List.map_map, openInbound_hosts, List.map_append]
    congr 1
    · symm
      rw [List.mapIdx_eq_iff]
      intro j
      rw [List.getElem?_map, List.getElem?_mapIdx, Option.map_map]
      congr 1
      funext host
      unfold cutHost
      dsimp only [Function.comp_apply]
      split
      · rename_i htunnel
        rw [Bool.and_eq_true] at htunnel
        exact edit_toDirect (isDict_of_isTarget (isTarget_of_isTunnel htunnel.1))
      · rfl
    · unfold addedFor
      split
      · rfl
      · rw [List.map_cons, List.map_nil, Function.comp_apply, edit_addedHost]

/-- A host of another inbound stays. -/
theorem cutHost_of_not (hosts before : List Doc) (h : isTarget c.runtime id host = false) :
    cutHost c id port hosts before host = host := by
  have htunnel : isTunnel c.runtime id host = false := by simp [isTunnel, h]
  have hmove : mustMove c id host = false := by simp [mustMove, isDirect, h]
  unfold cutHost
  rw [htunnel, Bool.false_and, moveFormer_of_not hmove, disableTunnel_of_not htunnel]
  rfl

/-- The edit for an inbound leaves every host with its inbound. -/
theorem isTarget_cutHost (hosts before : List Doc) :
    isTarget runtime id' (cutHost c id port hosts before host) = isTarget runtime id' host := by
  by_cases htarget : isTarget c.runtime id host = true
  · have hd := isDict_of_isTarget htarget
    have hmoved : isTarget runtime id' (moveFormer c id port host) =
        isTarget runtime id' host := by
      unfold moveFormer
      split
      · refine isTarget_congr ?_ ?_
        · simp [get?_movedHost hd]
        · simp [get?_movedHost hd]
      · rfl
    unfold cutHost
    split
    · exact isTarget_toDirect hd
    · unfold disableTunnel
      split
      · rw [isTarget_congr (Doc.get?_set_of_ne _ (by decide) _)
          (Doc.get?_set_of_ne _ (by decide) _), hmoved]
      · exact hmoved
  · rw [cutHost_of_not _ _ (by simpa using htarget)]

end Hosts

/-! ## One pass -/

section Pass

variable {c : Handover} {id : ℕ} {port : Port}

/-- What becomes of a host when the inbounds of a list are done. -/
def brought (c : Handover) (done : List (ℕ × Port)) (hosts before : List Doc) (host : Doc) : Doc :=
  (done.find? fun a => isTarget c.runtime a.1 host).elim host fun a =>
    cutHost c a.1 a.2 hosts before host

/-- The new hosts. -/
def added (c : Handover) (done : List (ℕ × Port)) (hosts : List Doc) : List Doc :=
  done.flatMap fun a => addedFor c a.1 a.2 hosts

/-- The hosts when the inbounds of a list are done: one pass, and the new hosts. -/
def broughtOver (c : Handover) (done : List (ℕ × Port)) (hosts : List Doc) : List Doc :=
  hosts.mapIdx (fun j host => brought c done hosts (hosts.take j) host) ++ added c done hosts

/-- No other inbound has the host. -/
theorem find?_of_not_mem {done : List (ℕ × Port)} {host : Doc} (hid : id ∉ done.map Prod.fst)
    (h : isTarget c.runtime id host = true) :
    (done.find? fun a => isTarget c.runtime a.1 host) = none := by
  rw [List.find?_eq_none]
  intro a ha hother
  exact hid (List.mem_map.mpr ⟨a, ha, isTarget_unique hother h⟩)

/-- The hosts of an inbound that is not done yet are as they were. -/
theorem brought_of_not_mem {done : List (ℕ × Port)} {hosts before : List Doc} {host : Doc}
    (hid : id ∉ done.map Prod.fst) (h : isTarget c.runtime id host = true) :
    brought c done hosts before host = host := by
  rw [brought, find?_of_not_mem hid h, Option.elim_none]

/-- A host stays at its inbound. -/
theorem isTarget_brought {runtime : String} {done : List (ℕ × Port)} {hosts before : List Doc}
    {host : Doc} :
    isTarget runtime id (brought c done hosts before host) = isTarget runtime id host := by
  unfold brought
  cases done.find? fun a => isTarget c.runtime a.1 host with
  | none => rfl
  | some a => exact isTarget_cutHost _ _

/-- A test for hosts of an inbound that is not done yet. -/
theorem local_brought {q : Doc → Bool} {done : List (ℕ × Port)} {hosts before : List Doc}
    (hq : ∀ host, q host = true → isTarget c.runtime id host = true)
    (hid : id ∉ done.map Prod.fst) (host : Doc) : q (brought c done hosts before host) = q host := by
  by_cases h : isTarget c.runtime id host = true
  · rw [brought_of_not_mem hid h]
  · have hnot : ∀ host', isTarget c.runtime id host' = false → q host' = false := by
      intro host' hfalse
      cases hvalue : q host' with
      | false => rfl
      | true => rw [hq host' hvalue] at hfalse; cases hfalse
    rw [hnot host (by simpa using h),
      hnot _ (by rw [isTarget_brought]; simpa using h)]

/-- Every new host belongs to an inbound that is done. -/
theorem isTarget_added {done : List (ℕ × Port)} {hosts : List Doc} {host : Doc}
    (hid : id ∉ done.map Prod.fst) (h : host ∈ added c done hosts) :
    isTarget c.runtime id host = false := by
  unfold added addedFor at h
  rw [List.mem_flatMap] at h
  obtain ⟨a, ha, hmem⟩ := h
  split at hmem
  · cases hmem
  · rw [List.mem_singleton] at hmem
    rw [hmem, isTarget_addedHost]
    have hne : a.1 ≠ id := fun heq => hid (List.mem_map.mpr ⟨a, ha, heq⟩)
    simp [hne]

/-- What becomes of a host depends on the other ones through two questions only. -/
theorem cutHost_congr {hosts hosts' before before' : List Doc} {host : Doc}
    (hdirect : hosts.any (isDirect c.runtime id) = hosts'.any (isDirect c.runtime id))
    (htunnel : before.any (isTunnel c.runtime id) = before'.any (isTunnel c.runtime id)) :
    cutHost c id port hosts before host = cutHost c id port hosts' before' host := by
  unfold cutHost
  rw [hdirect, htunnel]

/-- A test for hosts of an inbound that is not done yet finds what was there. -/
theorem any_broughtOver {q : Doc → Bool} {done : List (ℕ × Port)} {hosts : List Doc}
    (hq : ∀ host, q host = true → isTarget c.runtime id host = true)
    (hid : id ∉ done.map Prod.fst) : (broughtOver c done hosts).any q = hosts.any q := by
  have hnew : (added c done hosts).any q = false := by
    rw [List.any_eq_false]
    intro host hmem hvalue
    have htarget := hq host hvalue
    rw [isTarget_added hid hmem] at htarget
    cases htarget
  unfold broughtOver
  rw [List.any_append, hnew, Bool.or_false]
  have hkept : ∀ (before : List Doc) host, q (brought c done hosts before host) = q host :=
    fun before host => local_brought hq hid host
  rw [any_mapIdx fun j host => hkept (hosts.take j) host]

/-- The next inbound. -/
theorem cutInbound_broughtOver {done : List (ℕ × Port)} {hosts : List Doc}
    {out : List Doc × List CutoverAction} (hid : id ∉ done.map Prod.fst)
    (h : cutInbound c id port (broughtOver c done hosts) = .ok out) :
    out.1 = broughtOver c (done ++ [(id, port)]) hosts := by
  have hdirect : (broughtOver c done hosts).any (isDirect c.runtime id) =
      hosts.any (isDirect c.runtime id) := any_broughtOver (fun _ => isTarget_of_isDirect) hid
  have htarget : (broughtOver c done hosts).any (isTarget c.runtime id) =
      hosts.any (isTarget c.runtime id) := any_broughtOver (fun _ hhost => hhost) hid
  have hnew : addedFor c id port (broughtOver c done hosts) = addedFor c id port hosts := by
    unfold addedFor
    rw [htarget]
  have hfirst : ∀ j, j ≤ hosts.length →
      ((broughtOver c done hosts).take j).any (isTunnel c.runtime id) =
        (hosts.take j).any (isTunnel c.runtime id) := by
    intro j hj
    have hkept : ∀ (i : ℕ) host,
        isTunnel c.runtime id (brought c done hosts (hosts.take i) host) =
          isTunnel c.runtime id host :=
      fun i host => local_brought (fun _ => isTarget_of_isTunnel) hid host
    unfold broughtOver
    rw [List.take_append_of_le_length (by simpa using hj), any_take_mapIdx hkept]
  rw [cutInbound_hosts h, hnew]
  generalize hedit : (fun j host => cutHost c id port (broughtOver c done hosts)
    ((broughtOver c done hosts).take j) host) = edit
  have hidle : ∀ j host, isTarget c.runtime id host = false → edit j host = host := by
    intro j host hhost
    rw [← hedit]
    exact cutHost_of_not _ _ hhost
  have hcut : ∀ j, j ≤ hosts.length → ∀ host,
      edit j host = cutHost c id port hosts (hosts.take j) host := by
    intro j hj host
    rw [← hedit]
    exact cutHost_congr hdirect (hfirst j hj)
  unfold broughtOver added
  rw [List.mapIdx_append, List.flatMap_append, List.flatMap_singleton, List.append_assoc]
  congr 1
  · rw [List.mapIdx_mapIdx, List.mapIdx_eq_mapIdx_iff]
    intro j hj
    dsimp only [Function.comp_apply]
    by_cases hhost : isTarget c.runtime id hosts[j] = true
    · rw [brought_of_not_mem hid hhost, hcut j (Nat.le_of_lt hj)]
      unfold brought
      rw [List.find?_append, find?_of_not_mem hid hhost]
      simp [hhost]
    · rw [Bool.not_eq_true] at hhost
      rw [hidle j _ (by rw [isTarget_brought, hhost])]
      unfold brought
      rw [List.find?_append]
      cases done.find? fun a => isTarget c.runtime a.1 hosts[j] with
      | none => simp [hhost]
      | some a => rfl
  · congr 1
    rw [List.mapIdx_eq_iff]
    intro j
    change (added c done hosts)[j]? = ((added c done hosts)[j]?).map _
    cases hj : (added c done hosts)[j]? with
    | none => rfl
    | some host =>
        rw [Option.map_some, hidle _ _ (isTarget_added hid (List.mem_of_getElem? hj))]

end Pass

/-! ## The whole plan -/

/-- The assigned inbounds that are stored, with their ports. -/
def portsOf (inbounds : Table ℕ Inbound) (ids : List ℕ) : List (ℕ × Port) :=
  ids.filterMap fun id => (inbounds.get? id).map fun v => (id, v.port)

/-- The inbounds that lose a tunnel port. -/
def clearedOf (runtime : String) (inbounds : Table ℕ Inbound) (ids : List ℕ) : List (ℕ × Inbound) :=
  ids.filterMap fun id => ((inbounds.get? id).bind (clearTunnelPort runtime)).map fun v => (id, v)

/-- The ports of more inbounds. -/
theorem portsOf_append (inbounds : Table ℕ Inbound) (ids ids' : List ℕ) :
    portsOf inbounds (ids ++ ids') = portsOf inbounds ids ++ portsOf inbounds ids' :=
  List.filterMap_append

/-- The ports are those of the stored inbounds. -/
theorem mem_portsOf {inbounds : Table ℕ Inbound} {ids : List ℕ} {a : ℕ × Port} :
    a ∈ portsOf inbounds ids ↔
      a.1 ∈ ids ∧ ∃ v, inbounds.get? a.1 = some v ∧ v.port = a.2 := by
  unfold portsOf
  rw [List.mem_filterMap]
  constructor
  · rintro ⟨id, hid, heq⟩
    rw [Option.map_eq_some_iff] at heq
    obtain ⟨v, hv, rfl⟩ := heq
    exact ⟨hid, v, hv, rfl⟩
  · rintro ⟨hid, v, hv, hport⟩
    exact ⟨a.1, hid, by rw [hv, Option.map_some, hport]⟩

/-- One round of the loop that goes well. -/
theorem cutAssigned_ok {c : Handover} {inbounds : Table ℕ Inbound} {plan plan' : CutoverPlan}
    {id : ℕ} (h : cutAssigned c inbounds plan id = .ok plan') :
    ∃ v cut, inbounds.get? id = some v ∧ cutInbound c id v.port plan.hosts = .ok cut ∧
      plan'.hosts = cut.1 ∧
      plan'.inboundChanges = plan.inboundChanges ++ clearedOf c.runtime inbounds [id] := by
  unfold cutAssigned at h
  cases hv : inbounds.get? id with
  | none =>
      rw [hv] at h
      cases h
  | some v =>
      rw [hv] at h
      simp only [Option.elim_some, except_bind_ok_iff, except_pure_ok_iff] at h
      obtain ⟨_, hread, cut, hcut, rfl⟩ := h
      cases hread
      refine ⟨v, cut, rfl, hcut, rfl, ?_⟩
      dsimp only
      unfold clearedOf
      rw [List.filterMap_cons, List.filterMap_nil, hv, Option.bind_some]
      cases clearTunnelPort c.runtime v <;> rfl

/-- The loop: the inbounds that are done make one pass. -/
theorem foldlM_cutAssigned {c : Handover} {inbounds : Table ℕ Inbound} {hosts : List Doc}
    {ids done : List ℕ} {plan plan' : CutoverPlan} (hnodup : (done ++ ids).Nodup)
    (hplan : plan.hosts = broughtOver c (portsOf inbounds done) hosts)
    (h : ids.foldlM (cutAssigned c inbounds) plan = .ok plan') :
    (∀ id ∈ ids, (inbounds.get? id).isSome = true) ∧
      plan'.hosts = broughtOver c (portsOf inbounds (done ++ ids)) hosts ∧
      plan'.inboundChanges = plan.inboundChanges ++ clearedOf c.runtime inbounds ids := by
  induction ids generalizing done plan with
  | nil =>
      rw [List.foldlM_nil, except_pure_ok_iff] at h
      rw [h, List.append_nil]
      exact ⟨fun id hid => absurd hid List.not_mem_nil, hplan, (List.append_nil _).symm⟩
  | cons id ids ih =>
      rw [List.foldlM_cons, except_bind_ok_iff] at h
      obtain ⟨middle, hround, hrest⟩ := h
      obtain ⟨v, cut, hv, hcut, hhosts, hchanges⟩ := cutAssigned_ok hround
      have hid : id ∉ (portsOf inbounds done).map Prod.fst := by
        intro hmem
        obtain ⟨a, ha, rfl⟩ := List.mem_map.mp hmem
        have hdone := (mem_portsOf.mp ha).1
        exact (List.nodup_append.mp hnodup).2.2 _ hdone _ List.mem_cons_self rfl
      rw [hplan] at hcut
      have hnext : middle.hosts = broughtOver c (portsOf inbounds (done ++ [id])) hosts := by
        rw [hhosts, cutInbound_broughtOver hid hcut, portsOf_append]
        simp [portsOf, hv]
      rw [List.append_cons] at hnodup
      obtain ⟨hsome, hfinal, hcleared⟩ := ih hnodup hnext hrest
      refine ⟨?_, ?_, ?_⟩
      · intro id' hid'
        rcases List.mem_cons.mp hid' with rfl | hlater
        · rw [hv]
          rfl
        · exact hsome id' hlater
      · rw [hfinal, ← List.append_cons]
      · rw [hcleared, hchanges, List.append_assoc]
        congr 1
        exact (List.filterMap_append (l := [id])).symm

/-- The assigned inbounds are distinct. -/
theorem CutoverStore.nodup_assigned (s : CutoverStore) (node : NodeId) :
    (s.assigned node).Nodup := by
  unfold CutoverStore.assigned
  rw [(List.perm_insertionSort _ _).nodup_iff]
  refine List.Nodup.map_on ?_ (s.assignments.nodupKeys.of_map.filter _)
  intro row hrow row' hrow' heq
  rw [List.mem_filter, decide_eq_true_iff] at hrow hrow'
  have hkey : row.1 = row'.1 := Prod.ext (hrow.2.trans hrow'.2.symm) heq
  exact List.inj_on_of_nodup_map s.assignments.nodupKeys hrow.1 hrow'.1 hkey

/-- The stored ports of the assigned inbounds of a Node. -/
def CutoverStore.assignedPorts (s : CutoverStore) (node : NodeId) : List (ℕ × Port) :=
  portsOf s.core.inbounds (s.assigned node)

/-- The plan is one pass over the section, and the new hosts. -/
theorem directHostCutover_hosts {py : Builtins} {s : CutoverStore} {node : NodeId}
    {plan : CutoverPlan} (h : directHostCutover py s node = .ok plan) :
    ∃ record, s.nodes.get? node = some record ∧ py.strip record.dataAddress ≠ "" ∧
      (∀ id ∈ s.assigned node, (s.core.inbounds.get? id).isSome = true) ∧
      plan.hosts = broughtOver (s.handover py node record) (s.assignedPorts node) s.core.hosts ∧
      plan.inboundChanges = clearedOf node.runtime s.core.inbounds (s.assigned node) := by
  unfold directHostCutover at h
  cases hrecord : s.nodes.get? node with
  | none =>
      rw [hrecord] at h
      cases h
  | some record =>
      rw [hrecord] at h
      simp only [Option.elim_some, except_bind_ok_iff, ensure_ok_iff] at h
      obtain ⟨_, hread, _, haddress, hloop⟩ := h
      cases hread
      have hstart : s.core.hosts =
          broughtOver (s.handover py node record) (portsOf s.core.inbounds []) s.core.hosts := by
        simp [broughtOver, portsOf, added, brought, mapIdx_self]
      have hnodup : ([] ++ s.assigned node).Nodup := s.nodup_assigned node
      obtain ⟨hsome, hhosts, hchanges⟩ := foldlM_cutAssigned hnodup hstart hloop
      exact ⟨record, rfl, haddress, hsome, hhosts, hchanges⟩

end Deployment
end DarkXray
