import DarkXray.Core.TrafficMatrix
import DarkXray.Nodes.Relays

/-!
# Nodes, assignments and swap routes of the Hub

{lit}`NodePortSwap`: a port of one Node leads to an inbound on another one.  The exit gets a
second listener for its inbound, the source a listener that forwards to it.
-/

namespace DarkXray
namespace Deployment

open Library Core Nodes

/-! ## State -/

/-- A management origin, with the port that {lit}`urlsplit` reads of it. -/
structure Origin where
  text : String
  port : ℕ
deriving DecidableEq

/-- A row of {lit}`remote_nodes` with its assignments. -/
structure HubNode where
  origin : Origin
  enabled : Bool
  dataAddress : String
  inboundIds : List ℕ
deriving DecidableEq

/-- The phases of a swap route. -/
inductive SwapPhase where
  | disabled
  | enabling
  | enabled
  | disabling
  | deleting
deriving DecidableEq

/-- A row of {lit}`node_port_swaps`; its key is apart. -/
structure SwapRow where
  sourceNode : String
  sourcePort : Port
  exitNode : String
  inboundId : ℕ
  exitPort : Port
  entryAddress : String
  entryPort : Port
  name : String
  enabled : Bool
  phase : SwapPhase
deriving DecidableEq

/-- The limits of a row of {lit}`clients` that a Node gets. -/
structure LimitRow where
  limitIp : ℕ
  globalIpBlock : Bool
  globalDeviceBlock : Bool
deriving DecidableEq

/-- The tables of the Hub that a Node's configuration is built from; {lit}`warps` are the WARP
outbounds of the scopes. -/
structure Hub extends MatrixStore where
  limits : Table String LimitRow
  nodes : Table String HubNode
  swaps : Table ℕ SwapRow
  nextSwap : ℕ
  relays : Table Route RelayRow
  warps : String → Option Doc

/-- {lit}`str(x.get('tag') or '')` of an outbound whose tag is a text. -/
def outboundTagOf (out : Doc) : String :=
  ((out.get? "tag").bind Doc.str?).getD ""

/-- {lit}`runtime_outbounds`. -/
def Hub.runtimeOutbounds (h : Hub) (scope : String) : List Doc :=
  let base := h.outbounds.filter Doc.isDict
  match (h.warps scope).filter Doc.isDict with
  | none => base
  | some warp =>
      (base.filter fun out => outboundTagOf out ≠ "warp") ++ [warp.set "tag" (.str "warp")]

/-- The name of an outbound of a Node is reserved. -/
def Hub.reserves (h : Hub) (namespacePrefix : String) (nodeId : String) : Bool :=
  (h.runtimeOutbounds ("node:" ++ nodeId)).any fun out =>
    namespacePrefix.toList.isPrefixOf (outboundTagOf out).toList

/-- {lit}`nodes.get`. -/
def Hub.node (h : Hub) (nodeId : String) : Except String HubNode :=
  (h.nodes.get? nodeId).elim (.error "Node not found") .ok

/-- {lit}`engine.inbound`. -/
def Hub.inbound (h : Hub) (i : ℕ) : Except String Inbound :=
  (h.inbounds.get? i).elim (.error "Inbound not found") .ok

/-- The tunnel port of an inbound on a Node. -/
def tunnelPortOn (nodeId : String) (inbound : Inbound) : Option Port :=
  portAt inbound.panelMeta ("node:" ++ nodeId)

/-- The direct port and the tunnel port of an inbound on a Node. -/
def inboundPorts (nodeId : String) (inbound : Inbound) : List ℕ :=
  inbound.port.number :: ((tunnelPortOn nodeId inbound).map Port.number).toList

/-- {lit}`_ports`: the ports of a Node that no swap route may take. -/
def Hub.ports (cfg : Config) (h : Hub) (nodeId : String) : Except String (List ℕ) := do
  let node ← h.node nodeId
  let assigned ← node.inboundIds.mapM h.inbound
  pure (cfg.protectedPorts ++ node.origin.port :: assigned.flatMap (inboundPorts nodeId))

/-! ## Checks -/

/-- The transports that a swap route can carry. -/
def swapNetworks : List String :=
  ["tcp", "raw", "grpc", "ws", "httpupgrade", "xhttp"]

/-- The protocols of customer inbounds. -/
def swapProtocols : List Protocol :=
  [.vless, .vmess, .trojan, .shadowsocks]

/-- {lit}`validate` of a route against one other route. -/
def checkSwapApart (row r : SwapRow) : Except String Unit := do
  ensure (¬ (r.sourceNode = row.sourceNode ∧ r.sourcePort = row.sourcePort))
    "Relay port is already reserved by another SWAP route"
  ensure (¬ (r.exitNode = row.exitNode ∧ r.inboundId = row.inboundId))
    "This destination inbound already has a SWAP route"
  ensure (¬ (r.sourceNode = row.exitNode ∧ r.sourcePort = row.exitPort))
    "Destination port is a relay port, not the customer inbound"
  ensure (¬ (r.exitNode = row.sourceNode ∧ r.exitPort = row.sourcePort))
    "Relay port collides with a destination shadow listener"
  ensure (¬ (r.exitNode = row.exitNode ∧ r.exitPort = row.exitPort))
    "Destination port belongs to another SWAP inbound"

/-- The checks of the destination inbound. -/
def checkDestination (inbound : Inbound) (dst : HubNode) : Except String Unit := do
  ensure (inbound.listen ∈ ["0.0.0.0", "::", ""].map Atom.str)
    "Destination inbound must listen on a public interface"
  ensure (inbound.enable = true ∧ inbound.protocol ∈ swapProtocols)
    "Choose an enabled customer inbound"
  ensure (textAt inbound.streamSettings "network" "tcp" ∈ swapNetworks.map some)
    "DARK SWAP supports TCP transports; UDP/mKCP cannot use this path"
  ensure (dst.dataAddress ≠ "") "Destination node needs a data address"

/-- The checks of the port at the exit: the tunnel port of the inbound there, or a free one. -/
def Hub.checkExitPort (cfg : Config) (h : Hub) (row : SwapRow) (inbound : Inbound) :
    Except String Unit :=
  match tunnelPortOn row.exitNode inbound with
  | some existing => ensure (existing = row.exitPort)
      ("Use the destination existing tunnel listener port; " ++
        "ordinary tunnel settings cannot be replaced")
  | none => do
      let exitPorts ← h.ports cfg row.exitNode
      ensure (row.exitPort.number ∉ exitPorts)
        "Destination shadow port collides with an existing listener"

/-- {lit}`validate`; the ports are numbers in range. -/
def Hub.validateSwap (cfg : Config) (h : Hub) (id : Option ℕ) (row : SwapRow) :
    Except String Unit := do
  let src ← h.node row.sourceNode
  let dst ← h.node row.exitNode
  ensure (row.sourceNode ≠ row.exitNode) "Relay and destination must be different nodes"
  ensure (src.enabled = true ∧ dst.enabled = true) "Both nodes must be enabled"
  ensure (row.inboundId ∈ dst.inboundIds) "Assign this inbound to the destination node first"
  let inbound ← h.inbound row.inboundId
  checkDestination inbound dst
  let sourcePorts ← h.ports cfg row.sourceNode
  ensure (row.sourcePort.number ∉ sourcePorts)
    "Relay port collides with an existing direct/tunnel/management port"
  h.checkExitPort cfg row inbound
  h.swaps.rows.forM fun r => if some r.1 = id then .ok () else checkSwapApart row r.2
  ensure (h.reserves "dark-swap-" row.sourceNode = false)
    "The dark-swap- outbound namespace is reserved"

end Deployment
end DarkXray
