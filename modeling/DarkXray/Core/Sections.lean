import DarkXray.Core.Inbounds
import DarkXray.Library.Chains

/-!
# The section editors

{lit}`CoreEngine.save_section` for the outbounds, the routing and the hosts: every section
is checked by itself and against the sections that it refers to or that refer to it.

Main results:

- Theorem {lit}`saveSection_inbounds`: saving a section leaves the inbounds alone.
- Theorem {lit}`Edited.cases`: an edit is carried out or changes nothing.
-/

namespace DarkXray
namespace Core

open Library

/-! ## Outbounds -/

/-- The tag of one outbound, which has a protocol too. -/
def outboundTag (out : Doc) : Except Fault Atom := do
  let tag ← insist (match out.getD "tag" (.str "") with
    | .atom a => if out.isDict && tagRe a.text && out.truthyAt "protocol" then some a.norm else none
    | _ => none) "Every outbound requires tag and protocol"
  check (tag ≠ .str "dark-api") "Reserved API tag"
  pure tag

/-- {lit}`require_server`. -/
def requireServer (py : Builtins) (server : Doc) (label : String) : Except Fault Unit := do
  check server.isDict (label ++ " server must be an object")
  check (((server.get? "address").bind Doc.str?).elim false fun address =>
      address ≠ "" && address.length ≤ 253 &&
        address.toList.all fun c => c ∉ ['/', '?', '#', '@'] && !py.isSpace c)
    (label ++ " server address is invalid")
  check ((server.get? "port").bind Port.ofDoc?).isSome (label ++ " server port is invalid")

/-- The first item of an array that is not empty. -/
def firstOf (d : Option Doc) : Option Doc :=
  (d.bind Doc.list?).bind List.head?

/-- The first user of a server has an id. -/
def hasUser (server : Doc) : Bool :=
  (firstOf (server.get? "users")).elim false fun user =>
    (user.get? "id").elim false nonemptyStr

/-- The settings of an outbound of a protocol. -/
def protocolSettings (py : Builtins) (protocol : String) (settings : Doc) : Except Fault Unit := do
  if protocol = "vless" then
    match (settings.get? "vnext").bind Doc.list? with
    | some servers => do
        let server ← insist servers.head? "VLESS outbound requires a server"
        requireServer py server "VLESS"
        check (hasUser server) "VLESS outbound requires a UUID"
    | none => do
        requireServer py settings "VLESS"
        check ((settings.get? "id").elim false nonemptyStr) "VLESS outbound requires a UUID"
  else if protocol = "vmess" then do
    let server ← insist (firstOf (settings.get? "vnext"))
      "VMess outbound requires vnext server settings"
    requireServer py server "VMess"
    check (hasUser server) "VMess outbound requires a UUID"
  else if protocol ∈ ["trojan", "shadowsocks", "socks", "http"] then do
    let server ← insist (firstOf (settings.get? "servers"))
      (protocol ++ " outbound requires at least one server")
    requireServer py server protocol.toUpper
    if protocol ∈ ["trojan", "shadowsocks"] then
      check ((server.get? "password").elim false nonemptyStr)
        (protocol ++ " outbound requires a password")
  else if protocol = "wireguard" then do
    check ((settings.get? "secretKey").elim false nonemptyStr)
      "WireGuard outbound requires secretKey"
    let peer ← insist (firstOf (settings.get? "peers"))
      "WireGuard outbound requires at least one peer"
    check ((peer.get? "publicKey").elim false nonemptyStr &&
        (peer.get? "endpoint").elim false nonemptyStr)
      "WireGuard peer requires publicKey and endpoint"
    check ((settings.getD "address" (.list [])).list?.elim false fun items =>
        items.all nonemptyStr)
      "WireGuard address must be a list of CIDRs"
  else if protocol = "loopback" then
    check ((settings.get? "inboundTag").elim false nonemptyStr)
      "Loopback outbound requires inboundTag"
  else if protocol = "hysteria" then do
    requireServer py settings "Hysteria"
    check ((settings.getD "version" (.int 2)).int?.elim false fun n => n ∈ [1, 2])
      "Hysteria outbound version must be 1 or 2"
  else if protocol = "dns" then
    check ((settings.get? "rewritePort").elim true fun d => (Port.ofDoc? d).isSome)
      "DNS outbound rewritePort is invalid"
  else pure ()

/-- The settings of one outbound; only a text can be put into the first message. -/
def outboundSettings (py : Builtins) (tag : Atom) (out : Doc) : Except Fault Unit := do
  let settings := out.getD "settings" (.dict [])
  if !settings.isDict then
    match tag with
    | .str s => throw (coreError ("Outbound " ++ s ++ " settings must be an object"))
    | _ => throw (.raised "TypeError")
  match out.getD "protocol" (.str "") with
  | .atom a => protocolSettings py (py.lower a.text) settings
  | _ => pure ()

/-- {lit}`stream.get('sockopt',{}).get('dialerProxy')`, when it is true. -/
def dialerProxy (out : Doc) : Option Doc :=
  (((out.get? "streamSettings").bind (·.get? "sockopt")).bind (·.get? "dialerProxy")).filter
    Doc.truthy

/-- The transport settings and socket options of an outbound are objects. -/
def streamOk (out : Doc) : Bool :=
  (out.getD "streamSettings" (.dict [])).isDict &&
    ((out.getD "streamSettings" (.dict [])).getD "sockopt" (.dict [])).isDict

/-- The link of one outbound to the one that it is chained to. -/
def chainLink (tags : List Atom) (tag : Atom) (out : Doc) :
    Except Fault (Option (Atom × Atom)) := do
  check (streamOk out) "Invalid outbound streamSettings/sockopt"
  match dialerProxy out with
  | none => pure none
  | some via => do
      let target ← insist (via.str?.filter fun s => .str s ∈ tags) "Unknown chained outbound"
      pure (some (tag, .str target))

/-- {lit}`links`. -/
def chainLinks (tags : List Atom) (value : List Doc) : Except Fault (List (Atom × Atom)) := do
  let links ← (tags.zip value).mapM fun t => chainLink tags t.1 t.2
  pure (links.filterMap id)

/-- A walk along the links comes back to a tag that it has passed. -/
def chainCycle (links : List (Atom × Atom)) : Bool :=
  (links.map Prod.fst).any fun tag =>
    walk (fun current => List.lookup current links) (links.length + 1) [] tag = some true

/-- A document names one of the tags. -/
def names (tags : List Atom) (d : Doc) : Bool :=
  d.norm?.elim false fun a => a ∈ tags

/-- {lit}`any(any(tag.startswith(sel) for sel in selectors) for tag in tags)`; only a text has
the method. -/
def selectorMatches (selectors : List Doc) : List Atom → Except Fault Bool
  | [] => .ok false
  | .str tag :: tags =>
      if selectors.any fun sel => sel.str?.elim false fun s => s.toList.isPrefixOf tag.toList then
        .ok true
      else selectorMatches selectors tags
  | _ :: _ => .error (.raised "AttributeError")

/-- What the routing still refers to among the outbounds to store. -/
def outboundReferences (tags : List Atom) (routing : Doc) : Except Fault Unit := do
  (routing.itemsAt "rules").forM fun r =>
    check (!r.truthyAt "outboundTag" || (r.get? "outboundTag").elim false (names tags))
      "Routing still refers to an outbound being removed"
  (routing.itemsAt "balancers").forM fun b => do
    check (!b.truthyAt "fallbackTag" || (b.get? "fallbackTag").elim false (names tags))
      "Balancer fallback still refers to an outbound being removed"
    let selectors := b.itemsAt "selector"
    if selectors.isEmpty then pure ()
    else do
      let matched ← selectorMatches selectors tags
      check matched "Outbound removal would leave a balancer selector with no matching outbound"

/-- The checks of the outbounds. -/
def checkOutbounds (py : Builtins) (routing : Doc) (value : List Doc) : Except Fault Unit := do
  check (!value.isEmpty) "At least one outbound is required"
  let tags ← value.mapM outboundTag
  check (decide tags.Nodup) "Duplicate outbound tags"
  (tags.zip value).forM fun t => outboundSettings py t.1 t.2
  let links ← chainLinks tags value
  check (!chainCycle links) "Outbound chaining cycle"
  outboundReferences tags routing

/-! ## Routing -/

/-- {lit}`split(sep)` of a text. -/
def splitAt (sep : Char) (s : String) : List String :=
  (s.toList.splitOn sep).map String.ofList

/-- One part of a port expression: a port or a range. -/
def portPart (py : Builtins) (low : ℤ) (part : String) : Bool :=
  let part := py.strip part
  if '-' ∈ part.toList then
    match splitAt '-' part with
    | [a, b] => py.isDigit a && py.isDigit b &&
        (((py.int a).bind fun lo => (py.int b).map fun hi => (lo, hi)).elim false fun r =>
          low ≤ r.1 && r.1 ≤ r.2 && r.2 ≤ 65535)
    | _ => false
  else part ≠ "" && py.isDigit part &&
    ((py.int part).elim false fun n => low ≤ n && n ≤ 65535)

/-- {lit}`port_expr`. -/
def portExpr (py : Builtins) (raw : Option Doc) (label : String) (allowZero : Bool) :
    Except Fault Unit :=
  let low : ℤ := if allowZero then 0 else 1
  match raw with
  | none => .ok ()
  | some (.atom .null) => .ok ()
  | some (.atom (.int n)) => check (low ≤ n && n ≤ 65535) ("Invalid routing " ++ label)
  | some (.atom (.str s)) =>
      check (s = "" || (s.length ≤ 512 && (splitAt ',' s).all (portPart py low)))
        ("Invalid routing " ++ label)
  | some _ => .error (coreError ("Invalid routing " ++ label))

/-- {lit}`list_fields`; the iteration order of the set is left open by the language. -/
def listFields : List String :=
  ["domain", "ip", "sourceIP", "source", "localIP", "user", "inboundTag", "protocol", "process"]

/-- The protocols of a rule may be given as one text. -/
def splitProtocols (py : Builtins) (rule : Doc) : Doc :=
  match (rule.get? "protocol").bind Doc.str? with
  | none => rule
  | some s => rule.set "protocol"
      (.list (((splitAt ',' s).map py.strip |>.filter (· ≠ "")).map Doc.str))

/-- The checks of the fields of a rule that refer to nothing. -/
def checkRuleFields (py : Builtins) (rule : Doc) : Except Fault Unit := do
  check ((textAt rule "type" "field") = some "field") "Unsupported routing rule type"
  check ((rule.get? "network").elim true fun d =>
      match d with
      | .atom .null => true
      | d => d.str? ∈ ["", "tcp", "udp", "tcp,udp"].map some) "Invalid routing network"
  ["port", "sourcePort", "localPort"].forM fun key => portExpr py (rule.get? key) key false
  portExpr py (rule.get? "vlessRoute") "vlessRoute" true
  listFields.forM fun key =>
    check ((rule.get? key).elim true fun d =>
        nonemptyListOf (fun x => x.str?.elim false fun s => s ≠ "" && s.length ≤ 2048) (some d))
      ("Routing " ++ key ++ " must be a nonempty list of strings")
  check ((rule.get? "attrs").elim true fun d => d.dict?.elim false fun fields =>
      fields.all fun f => f.1 ≠ "" && f.1.length ≤ 256 &&
        f.2.str?.elim false fun s => s.length ≤ 2048) "Routing attrs must be a string map"
  check ((rule.get? "ruleTag").elim true fun d => d.str?.elim false fun s => s.length ≤ 128)
    "Invalid routing ruleTag"

/-- The checks of one rule, which is returned as it is stored. -/
def checkRule (py : Builtins) (tags : List Atom) (btags : List String) (rule : Doc) :
    Except Fault Doc := do
  check rule.isDict "Every rule must be an object"
  check (!rule.truthyAt "outboundTag" || (rule.get? "outboundTag").elim false (names tags))
    "Unknown routing outbound"
  check (rule.truthyAt "outboundTag" != rule.truthyAt "balancerTag")
    "Rule needs exactly one outbound or balancer tag"
  check (!rule.truthyAt "balancerTag" ||
      (rule.get? "balancerTag").elim false (names (btags.map Atom.str)))
    "Unknown routing balancer"
  let rule := splitProtocols py rule
  checkRuleFields py rule
  pure rule

/-- The strategies of a balancer. -/
def strategies : List String :=
  ["random", "roundRobin", "leastPing", "leastLoad"]

/-- The checks of one balancer against the tags of the outbounds and of the balancers before
it; its tag is returned. -/
def checkBalancer (tags : List Atom) (btags : List String) (b : Doc) : Except Fault String := do
  let tag ← insist (((b.get? "tag").bind Doc.str?).filter fun s => tagRe s && s ∉ btags)
    "Invalid or duplicate balancer tag"
  let selectors ← insist (((b.get? "selector").bind Doc.list?).filter fun items =>
      !items.isEmpty && items.all fun x => x.str?.elim false fun s => s ≠ "" && s.length ≤ 128)
    "Balancer requires nonempty tag selectors"
  -- the tags are a set there, whose order is left open
  let matched ← selectorMatches selectors tags
  check matched "Balancer selectors do not match any configured outbound tag"
  let strategy := b.getD "strategy" (.dict [("type", .str "random")])
  check (strategy.isDict && textAt strategy "type" "random" ∈ strategies.map some)
    "Unsupported balancer strategy"
  check (!b.truthyAt "fallbackTag" || (b.get? "fallbackTag").elim false (names tags))
    "Unknown balancer fallback outbound"
  pure tag

/-- The checks of the balancers in order; their tags are returned. -/
def checkBalancers (tags : List Atom) : List String → List Doc → Except Fault (List String)
  | btags, [] => .ok btags
  | btags, b :: balancers => do
      let tag ← checkBalancer tags btags b
      checkBalancers tags (btags ++ [tag]) balancers

/-- The tags of the stored outbounds. -/
def storedTags (outbounds : List Doc) : List Atom :=
  outbounds.filterMap fun out => (out.get? "tag").bind Doc.norm?

/-- An array in a field that may be missing. -/
def arrayAt (d : Doc) (key message : String) : Except Fault (List Doc) :=
  insist (d.getD key (.list [])).list? message

/-- The checks of the routing, which is returned as it is stored. -/
def checkRouting (py : Builtins) (outbounds : List Doc) (value : Doc) : Except Fault Doc := do
  check (textAt value "domainStrategy" "AsIs" ∈ ["AsIs", "IPIfNonMatch", "IPOnDemand"].map some)
    "Invalid routing domainStrategy"
  let rules ← arrayAt value "rules" "rules must be a list"
  let balancers ← arrayAt value "balancers" "balancers must be a list"
  let tags := storedTags outbounds
  let btags ← checkBalancers tags [] balancers
  let rules ← rules.mapM (checkRule py tags btags)
  pure (if (value.get? "rules").isSome then value.set "rules" (.list rules) else value)

/-! ## Hosts -/

/-- A plain address. -/
def plainAddress (s : String) : Bool :=
  s ≠ "" && s.length ≤ 253 && s.toList.all fun c => c ∉ ['/', '?', '#', '@', ' ', '\r', '\n']

/-- The addresses of a host without repetition, the primary one first. -/
def hostAddresses (py : Builtins) (host : Doc) : Except Fault (List String) := do
  let addr := host.getD "address" (.str "")
  let raw ← insist (match host.get? "addresses" with
    | none => some [addr]
    | some (.atom .null) => some [addr]
    | some d => d.list?.filter fun items => 1 ≤ items.length && items.length ≤ 64)
    "Host addresses must contain 1..64 IP/domain values"
  let items ← raw.mapM fun item => insist ((item.str?.map py.strip).filter plainAddress)
    "Host address must be a plain IP/domain"
  let addresses := items.foldl (fun seen item => if item ∈ seen then seen else seen ++ [item]) []
  match addr.str?.map py.strip with
  | some primary =>
      if primary ≠ "" && primary ∉ addresses then do
        check (plainAddress primary) "Host address must be a plain IP/domain"
        pure (primary :: addresses)
      else pure addresses
  | none => pure addresses

/-- A field that is stored with one of several texts; a false one stands for the default. -/
def choiceAt (d : Doc) (key default : String) (choices : List String) (message : String) :
    Except Fault String :=
  insist ((if d.truthyAt key then (d.get? key).bind Doc.str? else some default).filter
    fun s => s ∈ choices) message

/-- The text fields of a host. -/
def hostTexts : List String :=
  ["remark", "sni", "host", "path", "alpn", "fingerprint", "security", "finalMask",
    "mihomoIpVersion"]

/-- The switches of a host. -/
def hostSwitches : List String :=
  ["allowInsecure", "overrideSniFromAddress", "keepSniBlank"]

/-- The stored FinalMask of a host. -/
def finalMask (py : Builtins) (host : Doc) : Except Fault String :=
  let fm := py.strip ((textAt host "finalMask" "").getD "")
  if fm = "" then .ok ""
  else do
    let d ← insist (py.loads fm) "Host FinalMask must be valid JSON"
    check (d.isDict && d.truthy) "Host FinalMask must be a nonempty JSON object"
    pure (py.compact d)

/-- The stored ALPN list of a host. -/
def hostAlpn (py : Builtins) (host : Doc) : Except Fault (Option String) :=
  let alpn := py.strip ((textAt host "alpn" "").getD "")
  if alpn = "" then .ok none
  else do
    let parts := ((splitAt ',' alpn).map py.strip).filter (· ≠ "")
    check (!parts.isEmpty && parts.length ≤ 16 && parts.all fun x =>
        x.length ≤ 64 && x.toList.all fun c => 33 ≤ c.toNat && c.toNat ≤ 126)
      "Invalid host ALPN list"
    let unique := parts.foldl (fun seen x => if x ∈ seen then seen else seen ++ [x]) []
    pure (some (",".intercalate unique))

/-- The checks of one host, which is returned as it is stored. -/
def checkHost (py : Builtins) (known : List ℕ) (host : Doc) : Except Fault Doc := do
  check (host.isDict && ((host.get? "inboundId").bind Doc.int?).elim false fun n =>
      known.any fun i => (i : ℤ) = n) "Host requires an existing inboundId"
  let addresses ← hostAddresses py host
  let address ← insist addresses.head? "Host address must be a plain IP/domain"
  let host := host.set "address" (.str address)
  let host := if 1 < addresses.length then host.set "addresses" (.list (addresses.map Doc.str))
    else host.erase "addresses"
  check ((host.get? "port").bind Port.ofDoc?).isSome "Invalid host port"
  check ((host.get? "enable").elim true fun d => d.bool?.isSome) "Host enable must be boolean"
  let runtime ← insist ((if host.truthyAt "runtime" then (host.get? "runtime").bind Doc.str?
    else some "local").filter runtimeRe) "Host runtime must be local or node:<id>"
  let host := host.set "runtime" (.str runtime)
  let endpoint ← choiceAt host "endpointType" "direct" ["direct", "tunnel"]
    "Host endpointType must be direct or tunnel"
  let host := host.set "endpointType" (.str endpoint)
  hostTexts.forM fun key =>
    check ((host.get? key).elim true fun d => d.str?.elim false fun s => s.length ≤ 8192)
      ("Invalid host " ++ key)
  let security ← choiceAt host "security" "same" ["same", "tls", "none"]
    "Host security override must be same, tls or none"
  let host := host.set "security" (.str security)
  hostSwitches.forM fun key =>
    check ((host.get? key).elim true fun d => d.bool?.isSome) ("Host " ++ key ++ " must be boolean")
  let host := hostSwitches.foldl (fun h key => h.setDefault key (.bool false)) host
  check (!(host.truthyAt "overrideSniFromAddress" && host.truthyAt "keepSniBlank"))
    "Host cannot both derive SNI from address and keep SNI blank"
  let excluded := host.getD "excludeFromSubTypes" (.list [])
  check (excluded.list?.elim false fun items => items.length ≤ 3 &&
      items.all (fun x => x.str? ∈ ["raw", "json", "clash"].map some) &&
      decide (items.map Doc.str?).Nodup)
    "Host format exclusions must contain unique raw/json/clash values"
  let host := host.set "excludeFromSubTypes" excluded
  check (textAt host "mihomoIpVersion" "" ∈
      ["", "dual", "ipv4", "ipv6", "ipv4-prefer", "ipv6-prefer"].map some)
    "Invalid Mihomo host IP version"
  let mask ← finalMask py host
  let host := host.set "finalMask" (.str mask)
  let alpn ← hostAlpn py host
  pure (alpn.elim host fun s => host.set "alpn" (.str s))

/-- The checks of the hosts. -/
def checkHosts (py : Builtins) (known : List ℕ) (value : List Doc) : Except Fault (List Doc) :=
  value.mapM (checkHost py known)

/-! ## Saving -/

/-- The sections that refer to each other. -/
inductive SectionName where
  | outbounds
  | routing
  | hosts
deriving DecidableEq, Repr

/-- {lit}`save_section` for these sections. -/
def saveSection (py : Builtins) (cfg : Config) (s : CoreStore) (name : SectionName) (value : Doc) :
    Except Fault CoreStore := do
  cfg.write
  match name with
  | .outbounds => do
      let items ← insist value.list? "Wrong settings shape"
      check ((py.dumps value).length ≤ 500000) "Settings too large"
      checkOutbounds py s.routing items
      pure { s with outbounds := items }
  | .routing => do
      check value.isDict "Wrong settings shape"
      check ((py.dumps value).length ≤ 500000) "Settings too large"
      let routing ← checkRouting py s.outbounds value
      pure { s with routing }
  | .hosts => do
      let items ← insist value.list? "Wrong settings shape"
      check ((py.dumps value).length ≤ 500000) "Settings too large"
      let hosts ← checkHosts py (s.inbounds.rows.map Prod.fst) items
      pure { s with hosts }

/-- Saving a section leaves the inbounds alone. -/
theorem saveSection_inbounds {py : Builtins} {cfg : Config} {s t : CoreStore}
    {name : SectionName} {value : Doc} (h : saveSection py cfg s name value = .ok t) :
    t.inbounds = s.inbounds ∧ t.nextId = s.nextId := by
  cases name <;> simp only [saveSection, except_bind_ok_iff, except_pure_ok_iff] at h
  · obtain ⟨_, _, _, _, _, _, _, _, rfl⟩ := h
    exact ⟨rfl, rfl⟩
  · obtain ⟨_, _, _, _, _, _, _, _, rfl⟩ := h
    exact ⟨rfl, rfl⟩
  · obtain ⟨_, _, _, _, _, _, _, _, rfl⟩ := h
    exact ⟨rfl, rfl⟩

/-! ## Edits -/

/-- Edits of the store of the engine.  The clients belong to other operations and may change
in any way. -/
inductive Edit where
  | saveSection (name : SectionName) (value : Doc)
  | saveInbound (fresh : String) (data : Doc) (i : Option ℕ)
  | deleteInbound (i : ℕ)
  | setClients (clients : List CoreClient) (managed : List (List ℕ))

/-- The outcome of an edit. -/
def Edit.attempt (py : Builtins) (cfg : Config) (s : CoreStore) : Edit → Except Fault CoreStore
  | .saveSection name value => Core.saveSection py cfg s name value
  | .saveInbound fresh data i => Core.saveInbound py cfg fresh s data i
  | .deleteInbound i => Core.deleteInbound cfg s i
  | .setClients clients managed => .ok { s with clients, managed }

/-- A rejected edit leaves the store as it is. -/
def CoreStore.edit (py : Builtins) (cfg : Config) (s : CoreStore) (e : Edit) : CoreStore :=
  match e.attempt py cfg s with
  | .ok t => t
  | .error _ => s

/-- One edit, accepted or rejected. -/
def Edited (py : Builtins) (cfg : Config) (s : CoreStore) (e : Edit) (t : CoreStore) : Prop :=
  s.edit py cfg e = t

/-- An edit is rejected, or it is one of the accepted ones. -/
theorem Edited.cases {py : Builtins} {cfg : Config} {s t : CoreStore} {e : Edit}
    (h : Edited py cfg s e t) : t = s ∨ e.attempt py cfg s = .ok t := by
  unfold Edited CoreStore.edit at h
  cases hattempt : e.attempt py cfg s with
  | error fault =>
      rw [hattempt] at h
      exact Or.inl h.symm
  | ok u =>
      rw [hattempt] at h
      exact Or.inr (congrArg Except.ok h)

end Core
end DarkXray
