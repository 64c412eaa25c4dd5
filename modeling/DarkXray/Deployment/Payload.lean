import Mathlib.Data.List.Infix
import DarkXray.Deployment.Swaps

/-!
# The configuration of a Node

{lit}`build_node_desired_payload` on the Hub: the assigned inbounds with their clients, and
the routing with the rules of the Traffic Matrix, of the exit routes and of the swap routes.
{lit}`NodeRuntime` on the Agent installs it, and its engine compiles the routing again.
-/

namespace DarkXray
namespace Deployment

open Library Core Nodes

/-- Functions of the interpreter's libraries: the start of a hash in hexadecimal digits, and
the public key of a private one. -/
structure Crypto where
  digest : ℕ → String → String
  publicKey : String → Option String

/-- An assigned inbound: its number on the Hub, and its clients by their identity there. -/
structure Bundle where
  source : ℕ
  inbound : Inbound
  clients : List (String × Doc)

/-- The limits of a client on a Node. -/
structure NodePolicy where
  sourceEmail : String
  limitIp : ℕ
  limitHwid : ℤ
  globalIpBlocked : Bool
  globalDeviceBlocked : Bool
deriving DecidableEq

/-- The parts of a payload that decide about listeners, clients and routing. -/
structure NodePayload where
  outbounds : List Doc
  routing : Doc
  assignments : List Bundle
  clients : List NodePolicy

/-! ## Assigned inbounds -/

/-- The fields of a client that a Node gets. -/
def clientFields : List String :=
  ["id", "password", "flow", "encryption", "security", "enable"]

/-- {lit}`{k:client[k] for k in (...) if k in client}`. -/
def sentClient (c : Doc) : Doc :=
  .dict (clientFields.filterMap fun key => (c.get? key).map fun v => (key, v))

/-- The panel data of an inbound for a Node: its tunnel port there becomes the local one. -/
def nodeMeta (nodeId : String) (panelMeta : Doc) : Doc :=
  let rest := (panelMeta.erase "deployLocal").erase "deploymentTargets"
  match portAt panelMeta ("node:" ++ nodeId) with
  | some port => rest.set "tunnelPorts" (.dict [("local", port.doc)])
  | none => rest.erase "tunnelPorts"

/-- The clients of an inbound. -/
def clientsOf (s : CoreStore) (source : ℕ) : Except String (List (String × Doc)) :=
  (s.clients.filter fun c => source ∈ c.inboundIds).mapM fun c =>
    match (c.body.get? "email").bind Doc.str? with
    | some email => .ok (email, sentClient c.body)
    | none => .error "KeyError"

/-- One assignment. -/
def Hub.bundle (h : Hub) (nodeId : String) (source : ℕ) : Except String Bundle := do
  let inbound ← h.inbound source
  let clients ← clientsOf h.toCoreStore source
  pure ⟨source, { inbound with panelMeta := nodeMeta nodeId inbound.panelMeta }, clients⟩

/-! ## Exit routes -/

/-- What exit routes read of an inbound. -/
def exitInboundOf (crypto : Crypto) (v : Inbound) : ExitInbound where
  enable := v.enable
  protocol := v.protocol.name
  network := (textAt v.streamSettings "network" "tcp").getD ""
  security := (textAt v.streamSettings "security" "").getD ""
  decryption := (textAt v.settings "decryption" "none").getD ""
  listen :=
    match v.listen with
    | .str s => s
    | _ => "None"
  header :=
    let tcp := v.streamSettings.getD "tcpSettings" (v.streamSettings.getD "rawSettings" (.dict []))
    (textAt (tcp.getD "header" (.dict [])) "type" "none").getD ""
  reality := do
    let settings := v.streamSettings.getD "realitySettings" (.dict [])
    let privateKey ← (settings.get? "privateKey").bind Doc.str?
    let publicKey ← crypto.publicKey privateKey
    let serverName ← (settings.itemsAt "serverNames").head?.bind Doc.str?
    let shortId ← (settings.itemsAt "shortIds").head?.bind Doc.str?
    if serverName = "" then none else pure ⟨publicKey, serverName, shortId⟩

/-- What exit routes read of the Nodes and inbounds. -/
def Hub.estate (crypto : Crypto) (h : Hub) : Estate where
  nodes := fun nodeId => (h.nodes.get? nodeId).map fun node =>
    ⟨node.enabled, node.inboundIds, node.dataAddress, h.reserves "dark-relay-" nodeId⟩
  inbounds := fun i => (h.inbounds.get? i).map (exitInboundOf crypto)

/-- {lit}`_tag` of an exit route. -/
def relayTag (crypto : Crypto) (route : Route) : String :=
  "dark-relay-" ++ crypto.digest 20 (route.1 ++ "\x00" ++ toString route.2)

/-- {lit}`mirror_email`. -/
def mirrorEmail (crypto : Crypto) (nodeId email : String) : String :=
  "nm_" ++ crypto.digest 24 (nodeId ++ "\x00" ++ email)

/-- The network with the transport of a route, and the client that it uses there. -/
def bridgeClient (network credential : String) : Doc :=
  .dict ([("id", .str credential), ("enable", .bool true)] ++
    if network ∈ ["tcp", "raw"] then [("flow", .str "xtls-rprx-vision")] else [])

/-- {lit}`enrich_bundles` for one route. -/
def bridgeBundles (crypto : Crypto) (h : Hub) (nodeId : String) (bundles : List Bundle)
    (row : RelayRow) : List Bundle :=
  if row.phase = .deleting ∨ row.exitNode ≠ nodeId then bundles
  else
    match relayDestination (h.estate crypto) row.exitNode row.exitInbound with
    | .error _ => bundles
    | .ok (network, _) => bundles.map fun b =>
        if b.source = row.exitInbound then
          { b with clients := b.clients ++ [(row.identity, bridgeClient network row.credential)] }
        else b

/-- A route comes before another one. -/
def routeBefore (a b : Route × RelayRow) : Bool :=
  a.1.1 < b.1.1 || (a.1.1 = b.1.1 && a.1.2 ≤ b.1.2)

/-- {lit}`NodeRelay.rows`. -/
def Hub.relayRows (h : Hub) : List (Route × RelayRow) :=
  h.relays.rows.insertionSort fun a b => routeBefore a b

/-- {lit}`build_node_bundles`. -/
def Hub.nodeBundles (crypto : Crypto) (h : Hub) (nodeId : String) : Except String (List Bundle) := do
  let node ← h.node nodeId
  let bundles ← node.inboundIds.mapM (h.bundle nodeId)
  pure (h.relayRows.foldl (fun bundles r => bridgeBundles crypto h nodeId bundles r.2) bundles)

/-- {lit}`[v for v in values if key not in rule or v in rule[key]]`. -/
def commonValues (rule : Doc) (key : String) (values : List String) : Except String (List String) :=
  if !rule.isDict then .error "TypeError"
  else
    match rule.get? key with
    | none => .ok values
    | some (.list items) => .ok (values.filter fun v => items.any fun d => d.str? = some v)
    | some (.dict fields) => .ok (values.filter fun v => fields.any fun f => f.1 = v)
    | some (.atom (.str s)) => .ok (values.filter fun v => v.toList <:+: s.toList)
    | some (.atom _) => .error "TypeError"

/-- The outbound of a rule refuses its connections. -/
def leadsToBlock (blocked : List Doc) (rule : Doc) : Bool :=
  match (rule.get? "outboundTag").bind Doc.str? with
  | some tag => blocked.any fun out => outboundTagOf out = tag
  | none => false

/-- One rule of {lit}`scoped_policies`, with its number among those that are kept. -/
def scopedRule (blocked : List Doc) (tag selected key : String) (inbound : Option Inbound)
    (original : Doc) (common : List String) (n : ℕ) : Doc :=
  let rule := original.set key (.list (common.map Doc.str))
  let rule :=
    match inbound with
    | some v => if isMatrixRule original && common = [v.tag] then rule.set "localPort" v.port.doc
        else rule
    | none => rule
  let rule := if leadsToBlock blocked original then rule
    else (rule.erase "balancerTag").set "outboundTag" (.str selected)
  rule.set "ruleTag" (.str (tag ++ "-policy-" ++ toString n))

/-- {lit}`scoped_policies`: the rules that a route keeps for its own traffic. -/
def scopedPolicies (blocked : List Doc) (tag selected key : String) (values : List String)
    (inbound : Option Inbound) : List Doc → ℕ → Except String (List Doc)
  | [], _ => .ok []
  | original :: rules, n => do
      let common ← commonValues original key values
      if common = [] then scopedPolicies blocked tag selected key values inbound rules n
      else do
        let rest ← scopedPolicies blocked tag selected key values inbound rules (n + 1)
        pure (scopedRule blocked tag selected key inbound original common n :: rest)

/-- Outbounds and rules that routes add. -/
structure Added where
  outbounds : List Doc
  exitRules : List Doc
  ingressRules : List Doc

/-- The outbound of a route at its exit. -/
def freedomOutbound (tag : String) : Doc :=
  .dict [("tag", .str tag), ("protocol", .str "freedom"), ("settings", .dict [])]

/-- The exit part of one route. -/
def exitPart (crypto : Crypto) (h : Hub) (nodeId : String) (blocked rules : List Doc)
    (route : Route) (row : RelayRow) : Except String Added := do
  let tag := relayTag crypto route ++ "-exit"
  match relayDestination (h.estate crypto) row.exitNode row.exitInbound with
  | .error _ => pure ⟨[], [], []⟩
  | .ok _ => do
      let email := mirrorEmail crypto nodeId row.identity
      let policies ← scopedPolicies blocked tag tag "user" [email] none rules 0
      pure ⟨[freedomOutbound tag], policies ++ [.dict [("type", .str "field"),
        ("user", .list [.str email]), ("outboundTag", .str tag), ("ruleTag", .str tag)]], []⟩

/-- The outbound of a route at its source; an exit that cannot be reached refuses. -/
def ingressOutbound (crypto : Crypto) (h : Hub) (route : Route) (row : RelayRow) : Doc :=
  let tag := relayTag crypto route
  let reached : Except String (String × RealityKey) := do
    let _ ← relayInbound (h.estate crypto) route.1 route.2
    relayDestination (h.estate crypto) row.exitNode row.exitInbound
  match reached, h.nodes.get? row.exitNode, h.inbounds.get? row.exitInbound with
  | .ok (network, key), some node, some exit =>
      let flow := if network ∈ ["tcp", "raw"] then [("flow", Doc.str "xtls-rprx-vision")] else []
      let user := Doc.dict ([("id", .str row.credential), ("encryption", .str "none")] ++ flow)
      let reality := Doc.dict [("fingerprint", .str "chrome"), ("serverName", .str key.serverName),
        ("publicKey", .str key.publicKey), ("shortId", .str key.shortId)]
      .dict [("tag", .str tag), ("protocol", .str "vless"),
        ("settings", .dict [("vnext", .list [.dict [("address", .str node.dataAddress),
          ("port", exit.port.doc), ("users", .list [user])]])]),
        ("streamSettings", .dict [("network", .str network), ("security", .str "reality"),
          ("realitySettings", reality)])]
  | _, _, _ => .dict [("tag", .str tag), ("protocol", .str "blackhole"), ("settings", .dict [])]

/-- The source part of one route; an inbound that is gone has no traffic. -/
def ingressPart (crypto : Crypto) (h : Hub) (nodeId : String) (blocked rules : List Doc)
    (route : Route) (row : RelayRow) : Except String Added := do
  match h.inbounds.get? route.2 with
  | none => pure ⟨[], [], []⟩
  | some inbound => do
      let tag := relayTag crypto route
      let tags := inbound.tag :: ((tunnelPortOn nodeId inbound).map (tunnelTag route.2)).toList
      let policies ← scopedPolicies blocked tag tag "inboundTag" tags (some inbound) rules 0
      pure ⟨[ingressOutbound crypto h route row], [], policies ++ [.dict [("type", .str "field"),
        ("inboundTag", .list [.str inbound.tag]), ("outboundTag", .str tag),
        ("ruleTag", .str tag)]]⟩

/-- Nothing is added unless a condition holds. -/
def addedWhen (p : Prop) [Decidable p] (part : Except String Added) : Except String Added :=
  if p then part else .ok ⟨[], [], []⟩

/-- The parts of one route; an exit that cannot be reached also skips the source part. -/
def routePart (crypto : Crypto) (h : Hub) (nodeId : String) (blocked rules : List Doc)
    (r : Route × RelayRow) : Except String Added := do
  let atExit := r.2.exitNode = nodeId ∧ r.2.phase ≠ .deleting
  let skipped := atExit ∧
    (relayDestination (h.estate crypto) r.2.exitNode r.2.exitInbound).isOk = false
  let exit ← addedWhen atExit (exitPart crypto h nodeId blocked rules r.1 r.2)
  let ingress ← addedWhen (r.1.1 = nodeId ∧ r.2.enabled = true ∧ ¬ skipped)
    (ingressPart crypto h nodeId blocked rules r.1 r.2)
  pure ⟨exit.outbounds ++ ingress.outbounds, exit.exitRules, ingress.ingressRules⟩

/-- {lit}`NodeRelay.compile`: outbounds and rules with those of the exit routes. -/
def compileRelays (crypto : Crypto) (h : Hub) (nodeId : String) (outbounds rules : List Doc) :
    Except String (List Doc × List Doc) := do
  let relevant := h.relayRows.filter fun r =>
    r.2.exitNode = nodeId || (r.1.1 = nodeId && r.2.enabled)
  if relevant.isEmpty then pure (outbounds, rules)
  else do
    ensure (∀ out ∈ outbounds, "dark-relay-".toList.isPrefixOf (outboundTagOf out).toList = false)
      "The dark-relay- outbound namespace is reserved"
    let blocked := outbounds.filter fun out => (out.get? "protocol").bind Doc.str? = some "blackhole"
    let parts ← relevant.mapM (routePart crypto h nodeId blocked rules)
    pure (outbounds ++ parts.flatMap Added.outbounds,
      parts.flatMap Added.exitRules ++ parts.flatMap Added.ingressRules ++ rules)

/-! ## Swap routes -/

/-- {lit}`source_id`: the number of the listener of a swap route. -/
def swapSource (id : ℕ) : ℕ :=
  1000000000 + id

/-- The tag of a swap route. -/
def swapTag (id : ℕ) : String :=
  "dark-swap-" ++ toString id

/-- The listener of a swap route at its source. -/
def swapInbound (id : ℕ) (row : SwapRow) (address : String) : Inbound where
  remark := "DARK SWAP TCP · " ++ row.name
  protocol := .dokodemoDoor
  listen := .str "0.0.0.0"
  port := row.sourcePort
  enable := true
  tag := swapTag id
  settings := .dict [("address", .str address), ("port", row.exitPort.doc),
    ("network", .str "tcp"), ("followRedirect", .bool false)]
  streamSettings := .dict [("network", .str "tcp"), ("security", .str "none")]
  sniffing := .dict [("enabled", .bool false)]
  panelMeta := .dict []

/-- The inbound of an exit listens on the port of the route, too. -/
def withShadow (row : SwapRow) (v : Inbound) : Inbound :=
  let ports := (v.panelMeta.getD "tunnelPorts" (.dict [])).set "local" row.exitPort.doc
  { v with panelMeta := v.panelMeta.set "tunnelPorts" ports }

/-- Change the first bundle of an inbound. -/
def updateBundle (source : ℕ) (f : Inbound → Inbound) : List Bundle → List Bundle
  | [] => []
  | b :: bundles =>
      if b.source = source then { b with inbound := f b.inbound } :: bundles
      else b :: updateBundle source f bundles

/-- The exit part of a swap route; the route that is off may be invalid and is left out. -/
def swapExit (cfg : Config) (h : Hub) (nodeId : String) (id : ℕ) (row : SwapRow)
    (bundles : List Bundle) : Except String (Option (List Bundle)) :=
  if row.exitNode = nodeId then
    match h.validateSwap cfg (some id) row with
    | .error e =>
        if row.enabled = false ∧ row.phase = .disabled then .ok none else .error e
    | .ok _ => .ok (some (updateBundle row.inboundId (withShadow row) bundles))
  else .ok (some bundles)

/-- The parts of a payload while it is built. -/
structure Draft where
  bundles : List Bundle
  outbounds : List Doc
  rules : List Doc

/-- The rule of a swap route. -/
def swapRule (id : ℕ) : Doc :=
  .dict [("type", .str "field"), ("inboundTag", .list [.str (swapTag id)]),
    ("outboundTag", .str (swapTag id)), ("ruleTag", .str (swapTag id))]

/-- The source part of a swap route. -/
def swapIngress (cfg : Config) (h : Hub) (nodeId : String) (id : ℕ) (row : SwapRow) (d : Draft) :
    Except String Draft := do
  if row.sourceNode = nodeId ∧ row.enabled = true then
    h.validateSwap cfg (some id) row
    ensure (∀ b ∈ d.bundles, b.source ≠ swapSource id) "SWAP synthetic inbound collision"
    let exit ← h.node row.exitNode
    ensure (∀ out ∈ d.outbounds, outboundTagOf out ≠ swapTag id) "Reserved SWAP outbound collision"
    pure ⟨d.bundles ++ [⟨swapSource id, swapInbound id row exit.dataAddress, []⟩],
      d.outbounds ++ [freedomOutbound (swapTag id)], swapRule id :: d.rules⟩
  else pure d

/-- {lit}`enrich` for one route. -/
def enrichSwap (cfg : Config) (h : Hub) (nodeId : String) (d : Draft) (r : ℕ × SwapRow) :
    Except String Draft := do
  if r.2.phase ≠ .deleting ∧ (r.2.exitNode = nodeId ∨
      (r.2.sourceNode = nodeId ∧ r.2.enabled = true)) then
    match ← swapExit cfg h nodeId r.1 r.2 d.bundles with
    | none => pure d
    | some bundles => swapIngress cfg h nodeId r.1 r.2 { d with bundles }
  else pure d

/-- {lit}`NodePortSwap.rows`. -/
def Hub.swapRows (h : Hub) : List (ℕ × SwapRow) :=
  h.swaps.rows.insertionSort fun a b => a.1 ≤ b.1

/-- {lit}`enrich`. -/
def Hub.enrichSwaps (cfg : Config) (h : Hub) (nodeId : String) (d : Draft) : Except String Draft :=
  h.swapRows.foldlM (enrichSwap cfg h nodeId) d

/-! ## The payload -/

/-- The limits of one client that is attached to an assigned inbound. -/
def Hub.nodePolicy (h : Hub) (assigned : List ℕ) (c : CoreClient) : Option NodePolicy :=
  let email := ((c.body.get? "email").bind Doc.str?).getD ""
  if email = "" ∨ ¬ c.inboundIds.any (· ∈ assigned) then none
  else
    let row := (h.limits.get? email).getD ⟨0, false, false⟩
    some ⟨email, row.limitIp, ((c.body.get? "limitHwid").bind Doc.int?).getD 0, row.globalIpBlock,
      row.globalDeviceBlock⟩

/-- The limits of the clients of a Node; the keys of the clients are distinct. -/
def Hub.nodePolicies (h : Hub) (bundles : List Bundle) : List NodePolicy :=
  h.clients.filterMap (h.nodePolicy (bundles.map Bundle.source))

/-- {lit}`build_node_desired_payload`. -/
def Hub.nodePayload (py : Builtins) (crypto : Crypto) (cfg : Config) (h : Hub) (nodeId : String) :
    Except String NodePayload := do
  let bundles ← h.nodeBundles crypto nodeId
  let scope := "node:" ++ nodeId
  ensure (h.routing.isDict = true) "TypeError"
  let routing := h.routingForScope py (crypto.digest 16) scope h.routing
  let relayed ← compileRelays crypto h nodeId (h.runtimeOutbounds scope) (routing.itemsAt "rules")
  let d ← h.enrichSwaps cfg nodeId ⟨bundles, relayed.1, relayed.2⟩
  pure ⟨d.outbounds, routing.set "rules" (.list d.rules), d.bundles, h.nodePolicies bundles⟩

/-! ## The Agent -/

/-- The record of a client on the Node. -/
def mirrorClient (crypto : Crypto) (nodeId : String) (policies : List NodePolicy)
    (client : String × Doc) : Doc :=
  let policy := policies.find? fun p => p.sourceEmail = client.1
  let raw := (client.2.set "email" (.str (mirrorEmail crypto nodeId client.1))).set "limitHwid"
    (.int ((policy.map NodePolicy.limitHwid).getD 0))
  if policy.any fun p => p.globalIpBlocked || p.globalDeviceBlocked then
    raw.set "enable" (.bool false)
  else raw

/-- All clients of a payload; one that is attached to several inbounds has one record. -/
def NodePayload.allClients (p : NodePayload) : List (String × Doc) :=
  (p.assignments.flatMap Bundle.clients).eraseDupsBy fun a b => a.1 == b.1

/-- The inbounds of a client. -/
def NodePayload.inboundsOf (p : NodePayload) (email : String) : List ℕ :=
  (p.assignments.filter fun b => b.clients.any fun c => c.1 = email).map Bundle.source

/-- The rows that {lit}`NodeRuntime` installs; a number that occurs twice is refused.  The Agent
has no rows of the Traffic Matrix. -/
def NodePayload.install (crypto : Crypto) (nodeId : String) (p : NodePayload) :
    Option MatrixStore :=
  if h : (p.assignments.map Bundle.source).Nodup then
    some {
      inbounds := ⟨p.assignments.map fun b => (b.source, b.inbound), by
        rwa [List.map_map]⟩
      nextId := (p.assignments.map Bundle.source).foldl max 0 + 1
      clients := p.allClients.map fun c =>
        ⟨mirrorClient crypto nodeId p.clients c, p.inboundsOf c.1⟩
      managed := []
      outbounds := p.outbounds
      routing := p.routing
      hosts := []
      matrix := Table.empty }
  else none

/-- What the configuration of the Agent routes by. -/
structure AgentConfig where
  parts : List (Listener × Option Listener)
  outbounds : List Doc
  routing : Doc

/-- {lit}`build_config` on the Agent, which has no WARP profile. -/
def NodePayload.agentConfig (py : Builtins) (crypto : Crypto) (nodeId : String) (p : NodePayload) :
    Option AgentConfig := do
  let s ← p.install crypto nodeId
  let parts ← (buildInbounds s.toCoreStore).toOption
  pure ⟨parts, s.outbounds.filter Doc.isDict, s.buildRouting py (crypto.digest 16) parts⟩

end Deployment
end DarkXray
