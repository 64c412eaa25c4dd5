import Mathlib.Data.List.Sort
import DarkXray.Core.Store
import DarkXray.Library.Checks

/-!
# The inbound editor

{lit}`CoreEngine.save_inbound` and {lit}`CoreEngine.delete_inbound`: what a submitted
document must be, how it must differ from the other rows, and what may be deleted.

Main results:

- Theorem {lit}`metaPorts_storedMeta`: the tunnel ports that are read back from a stored
  row are the ones that were checked.
- Theorem {lit}`parseInbound_parsed`: what a row is that may be stored.
- Theorem {lit}`checkApart_apart`: what the checks against another row leave out.
- Theorems {lit}`saveInbound_ok` and {lit}`deleteInbound_ok`: what an accepted edit has
  checked and written.
-/

namespace DarkXray
namespace Core

open Library

/-! ## REALITY targets -/

/-- Hosts whose certificate record is known to be too long. -/
def incompatibleRealityHosts : List String :=
  ["www.microsoft.com"]

/-- {lit}`s.rstrip('.')`. -/
def rstripDots (s : String) : String :=
  String.ofList (s.toList.reverse.dropWhile (· = '.')).reverse

/-- {lit}`parse_target`: the host of a REALITY target. -/
def parseTarget (py : Builtins) (value : String) : Except Fault String := do
  let scanError : Fault := .raised "RealityScanError"
  let number (digits : String) : Except Fault ℤ :=
    (py.int digits).elim (.error (.raised "ValueError")) .ok
  let value := py.strip value
  let chars := value.toList
  if value = "" || 300 < value.length then throw scanError
  if chars.any (fun c => c ∈ ['/', '?', '#', '@'] || py.isSpace c) then throw scanError
  let (host, port) ←
    if chars.head? = some '[' then do
      let close := chars.idxOf ']'
      if ¬ ']' ∈ chars ∨ close < 2 then throw scanError
      let host := String.ofList ((chars.take close).drop 1)
      let rest := chars.drop (close + 1)
      if rest = [] then pure (host, 443)
      else do
        let digits := String.ofList (rest.drop 1)
        if rest.head? ≠ some ':' ∨ ¬ py.isDigit digits then throw scanError
        let port ← number digits
        pure (host, port)
    else if chars.count ':' = 1 then do
      let digits := String.ofList ((chars.dropWhile (· ≠ ':')).drop 1)
      if py.isDigit digits then do
        let port ← number digits
        pure (String.ofList (chars.takeWhile (· ≠ ':')), port)
      else pure (value, 443)
    else pure (value, 443)
  let host := py.lower (py.strip (rstripDots host))
  if host = "" ∨ 253 < host.length ∨ ¬ (1 ≤ port ∧ port ≤ 65535) then throw scanError
  pure host

/-- {lit}`reality_target_policy`: the advisory of an incompatible target. -/
def realityAdvisory (py : Builtins) (value : String) : Except Fault (Option String) := do
  let host ← parseTarget py value
  if rstripDots (py.lower host) ∈ incompatibleRealityHosts then
    pure (some ("Known incompatible REALITY target on pinned Xray-core v26.3.27: " ++
      "the target may return a TLS Certificate record larger than REALITY's " ++
      "8192-byte parser limit. Use www.bing.com:443 or run Target Search."))
  else pure none

/-! ## Transports -/

/-- A text field with a default; {lit}`none` for anything but a text. -/
def textAt (d : Doc) (key default : String) : Option String :=
  (d.getD key (.str default)).str?

/-- A text that is not empty. -/
def nonemptyStr (d : Doc) : Bool :=
  d.str?.elim false fun s => s ≠ ""

/-- An array that is not empty and whose items meet a condition. -/
def nonemptyListOf (p : Doc → Bool) (d : Option Doc) : Bool :=
  (d.bind Doc.list?).elim false fun items => !items.isEmpty && items.all p

/-- A character of the URL-safe base64 alphabet. -/
def base64Char (c : Char) : Bool :=
  c.isAlphanum || c = '_' || c = '-'

/-- A hexadecimal short id of at most eight bytes. -/
def shortId (s : String) : Bool :=
  s.length % 2 = 0 && s.length ≤ 16 &&
    s.toList.all fun c => c.isDigit || ('a' ≤ c && c ≤ 'f') || ('A' ≤ c && c ≤ 'F')

/-- The REALITY settings of a transport. -/
def checkReality (py : Builtins) (rt : Doc) : Except Fault Unit := do
  let target := if rt.truthyAt "target" then rt.get? "target" else rt.get? "dest"
  -- 43 characters of this alphabet always decode to 32 bytes
  check ((textAt rt "privateKey" "").elim false fun key =>
      key.length = 43 && key.toList.all base64Char)
    "REALITY needs a 32-byte private key, target, server names and hexadecimal short IDs"
  check (nonemptyListOf nonemptyStr (rt.get? "serverNames") &&
      nonemptyListOf (fun d => d.str?.elim false shortId) (rt.get? "shortIds"))
    "REALITY needs a 32-byte private key, target, server names and hexadecimal short IDs"
  let text ← insist ((target.bind Doc.str?).filter fun s => s ≠ "")
    "REALITY needs a 32-byte private key, target, server names and hexadecimal short IDs"
  match ← realityAdvisory py text with
  | some advisory => throw (coreError advisory)
  | none => pure ()

/-- Fields of a transport that must be objects. -/
def transportObjects : List String :=
  ["realitySettings", "tlsSettings", "grpcSettings", "wsSettings", "xhttpSettings",
    "httpupgradeSettings", "kcpSettings", "sockopt"]

/-- {lit}`_validate_transport`: it returns the settings, with a method for shadowsocks. -/
def validateTransport (py : Builtins) (proto : Protocol) (settings st : Doc) :
    Except Fault Doc := do
  let net := textAt st "network" "tcp"
  let sec := textAt st "security" "none"
  transportObjects.forM fun key =>
    check ((st.get? key).elim true Doc.isDict) (key ++ " must be an object")
  check (net ∈ ["tcp", "raw", "ws", "grpc", "httpupgrade", "xhttp", "kcp"].map some)
    "Unsupported transport"
  check (sec ∈ ["none", "tls", "reality"].map some) "Unsupported security layer"
  check (sec ≠ some "reality" || (proto ∈ [.vless, .trojan] &&
      net ∈ ["tcp", "raw", "grpc", "xhttp"].map some))
    "REALITY requires VLESS/Trojan with TCP, gRPC or XHTTP"
  check (net ≠ some "kcp" || sec = some "none") "mKCP has no separate TLS/REALITY layer"
  if sec = some "reality" then checkReality py (st.getD "realitySettings" (.dict []))
  if sec = some "tls" then
    check (nonemptyListOf Doc.isDict
        ((st.getD "tlsSettings" (.dict [])).get? "certificates"))
      "TLS inbound requires a certificate list"
  if proto = .shadowsocks && !settings.truthyAt "method" then
    pure (settings.set "method" (.str "aes-128-gcm"))
  else pure settings

/-! ## The submitted document -/

/-- The fields of an inbound. -/
def inboundFields : List String :=
  ["remark", "protocol", "listen", "port", "enable", "tag", "settings", "streamSettings",
    "sniffing", "panelMeta", "id"]

/-- One entry of the submitted tunnel ports. -/
def parseTunnelPort (cfg : Config) (port : Port) (entry : String × Doc) :
    Except Fault (String × Port) := do
  check (runtimeRe entry.1) "Invalid Tunnel Port runtime"
  let p ← insist (Port.ofDoc? entry.2) "Tunnel Port must be between 1 and 65535"
  check (p ≠ port) "Tunnel Port must differ from the Direct inbound port"
  check (p.number ∉ cfg.protectedPorts) "Tunnel Port overlaps a protected management port"
  pure (entry.1, p)

/-- The submitted tunnel ports. -/
def parseTunnelPorts (cfg : Config) (port : Port) (panelMeta : Doc) :
    Except Fault (List (String × Port)) := do
  let raw := panelMeta.getD "tunnelPorts" (.dict [])
  let raw := match raw with
    | .atom .null => Doc.dict []
    | d => d
  let entries ← insist (raw.dict?.filter fun fields => fields.length ≤ 257)
    "Tunnel Ports must be a runtime-to-port object"
  entries.mapM (parseTunnelPort cfg port)

/-- {lit}`dict(sorted(tunnel_ports.items()))`. -/
def sortedPorts (ports : List (String × Port)) : List (String × Port) :=
  ports.insertionSort fun a b => a.1 ≤ b.1

/-- The stored object of the tunnel ports. -/
def portsDoc (ports : List (String × Port)) : Doc :=
  .dict ((sortedPorts ports).map fun t => (t.1, t.2.doc))

/-- The panel data with the checked tunnel ports. -/
def storedMeta (panelMeta : Doc) (ports : List (String × Port)) : Doc :=
  if ports = [] then panelMeta.erase "tunnelPorts"
  else panelMeta.set "tunnelPorts" (portsDoc ports)

/-- An object of an inbound; a missing one is empty. -/
def objectAt (v : Doc) (key : String) : Except Fault Doc :=
  insist (some (v.getD key (.dict [])) |>.filter Doc.isDict) (key ++ " must be an object")

/-- The settings without the credentials, with the default of VLESS. -/
def storedSettings (proto : Protocol) (settings : Doc) : Doc :=
  let settings := (settings.erase "clients").erase "accounts"
  if proto = .vless then settings.setDefault "decryption" (.str "none") else settings

/-- The part of {lit}`save_inbound` that only reads the submitted document; {lit}`fresh` is
the random part of a default tag.  It returns the row to store and the tunnel ports in the
order of the document. -/
def parseInbound (py : Builtins) (cfg : Config) (fresh : String) (v : Doc) :
    Except Fault (Inbound × List (String × Port)) := do
  let fields ← insist v.dict? "Unknown inbound field"
  check (fields.all fun f => f.1 ∈ inboundFields) "Unknown inbound field"
  let proto ← insist ((v.get? "protocol").bind Protocol.ofDoc?)
    "This standalone editor does not yet support that protocol"
  let port ← insist ((v.get? "port").bind Port.ofDoc?) "Port must be between 1 and 65535"
  check (port.number ∉ cfg.protectedPorts)
    "Port overlaps panel, core API, or protected management ports"
  let listen ← insist ((if v.truthyAt "listen" then v.get? "listen" else some (.str "0.0.0.0"))
      |>.bind fun
        | .atom a => if py.ipAddress a then some a else none
        | _ => none)
    "Listen must be an IPv4 or IPv6 address"
  let enable ← insist (v.getD "enable" (.bool true)).bool? "Invalid inbound fields"
  let remark ← insist ((textAt v "remark" "DARK inbound").filter fun s => s.length ≤ 200)
    "Invalid inbound fields"
  let tag ← insist ((textAt v "tag" ("dark-in-" ++ fresh)).filter fun s =>
    tagRe s && s ≠ "dark-api") "Invalid/reserved inbound tag"
  let settings ← objectAt v "settings"
  let streamSettings ← objectAt v "streamSettings"
  let sniffing ← objectAt v "sniffing"
  let panelMeta ← objectAt v "panelMeta"
  let tunnelPorts ← parseTunnelPorts cfg port panelMeta
  let panelMeta := storedMeta panelMeta tunnelPorts
  check ((py.dumps panelMeta).length ≤ 20000) "panelMeta too large"
  check (!(settings.truthyAt "clients" || settings.truthyAt "accounts"))
    "Credentials must be managed through DARK clients, not hidden in inbound JSON"
  let row : Inbound :=
    { remark, protocol := proto, listen, port, enable, tag
      settings := storedSettings proto settings
      streamSettings, sniffing, panelMeta }
  check ((py.dumps row.body).length ≤ 200000) "Inbound too large"
  let settings ← validateTransport py proto row.settings streamSettings
  pure ({ row with settings }, tunnelPorts)

/-! ## Collisions -/

/-- {lit}`meta_ports`: the tunnel ports of a stored row. -/
def metaPorts (panelMeta : Doc) : List (String × Port) :=
  (((panelMeta.get? "tunnelPorts").bind Doc.dict?).getD []).filterMap fun f =>
    (Port.ofDoc? f.2).map fun p => (f.1, p)

/-- {lit}`meta.get('deployLocal',True) is not False`. -/
def deployLocal (panelMeta : Doc) : Bool :=
  (panelMeta.get? "deployLocal").elim true fun d => d.bool? ≠ some false

/-- {lit}`deployed_on`; a list with an array or an object cannot be made a set. -/
def deployedOn (panelMeta : Doc) (runtime : String) : Except Fault Bool :=
  if runtime = "local" then .ok (deployLocal panelMeta)
  else
    let targets := panelMeta.itemsAt "deploymentTargets"
    if targets.all fun d => d.norm?.isSome then
      .ok (targets.any fun d => d.str? = some runtime)
    else .error (.raised "TypeError")

/-- The checks of a submitted row against one stored row. -/
def checkApart (v : Inbound) (tunnelPorts : List (String × Port)) (r : Inbound) :
    Except Fault Unit := do
  check (r.tag ≠ v.tag) "Duplicate inbound tag"
  check (r.port ≠ v.port) "Duplicate port; this release uses conservative collision checks"
  let otherPorts := metaPorts r.panelMeta
  tunnelPorts.forM fun t => do
    check (otherPorts.lookup t.1 ≠ some t.2) ("Duplicate Tunnel Port on " ++ t.1)
    let deployed ← deployedOn r.panelMeta t.1
    check (!(deployed && r.port = t.2)) ("Tunnel Port collides with another inbound on " ++ t.1)
  otherPorts.forM fun t => do
    let deployed ← deployedOn v.panelMeta t.1
    check (!(deployed && v.port = t.2))
      ("Inbound port collides with an existing Tunnel Port on " ++ t.1)

/-! ## Saving and deleting -/

/-- {lit}`inbound`: the row of an id. -/
def CoreStore.inbound (s : CoreStore) (i : ℕ) : Except Fault Inbound :=
  (s.inbounds.get? i).elim (.error (.coreError "Inbound not found" 404)) .ok

/-- An edited row keeps its protocol while clients are attached to it. -/
def CoreStore.checkProtocol (s : CoreStore) (v : Inbound) (i : ℕ) : Except Fault Unit := do
  let old ← s.inbound i
  check (old.protocol = v.protocol || !(s.clients.any fun c => i ∈ c.inboundIds))
    "Detach clients before switching an inbound protocol"

/-- Write a row: a new one gets the next id. -/
def CoreStore.putInbound (s : CoreStore) (v : Inbound) : Option ℕ → CoreStore
  | none => { s with inbounds := s.inbounds.insert s.nextId v, nextId := s.nextId + 1 }
  | some i => { s with inbounds := s.inbounds.update i fun _ => v }

/-- {lit}`save_inbound`. -/
def saveInbound (py : Builtins) (cfg : Config) (fresh : String) (s : CoreStore) (data : Doc)
    (i : Option ℕ) : Except Fault CoreStore := do
  cfg.write
  let (v, tunnelPorts) ← parseInbound py cfg fresh data
  i.elim (.ok ()) (s.checkProtocol v)
  s.inbounds.rows.forM fun row =>
    if some row.1 = i then .ok () else checkApart v tunnelPorts row.2
  pure (s.putInbound v i)

/-- The rule lists an inbound tag. -/
def listsInbound (rule : Doc) (tag : String) : Bool :=
  (rule.itemsAt "inboundTag").any fun d => d.str? = some tag

/-- {lit}`delete_inbound`. -/
def deleteInbound (cfg : Config) (s : CoreStore) (i : ℕ) : Except Fault CoreStore := do
  cfg.write
  let row ← s.inbound i
  check (!(s.managed.any (fun ids => i ∈ ids) || s.clients.any fun c => i ∈ c.inboundIds))
    "Detach all customers, including pending ones, before deleting an inbound"
  check (!(s.hosts.any fun h => (h.get? "inboundId").bind Doc.int? = some (i : ℤ)))
    "Remove dependent hosts first"
  check (!((s.routing.itemsAt "rules").any fun r => listsInbound r row.tag))
    "Remove dependent routing rules first"
  pure { s with inbounds := s.inbounds.erase i }

/-! ## Accepted rows -/

/-- {lit}`raw_ports.get('local')`, when it is a port. -/
def localPort (panelMeta : Doc) : Option Port :=
  ((panelMeta.get? "tunnelPorts").bind (·.get? "local")).bind Port.ofDoc?

/-- What the editor has checked of a row by itself. -/
structure Parsed (cfg : Config) (v : Inbound) (tunnelPorts : List (String × Port)) : Prop where
  tag : v.tag ≠ "dark-api"
  port : v.port.number ∉ cfg.protectedPorts
  tunnel : ∀ t ∈ tunnelPorts, t.2 ≠ v.port ∧ t.2.number ∉ cfg.protectedPorts
  stored : metaPorts v.panelMeta = sortedPorts tunnelPorts

/-- The tunnel ports that are read back from a stored row are the ones that were checked. -/
theorem metaPorts_storedMeta {panelMeta : Doc} (hmeta : panelMeta.isDict)
    (ports : List (String × Port)) : metaPorts (storedMeta panelMeta ports) = sortedPorts ports := by
  unfold storedMeta
  by_cases hports : ports = []
  · have hnone : (panelMeta.erase "tunnelPorts").get? "tunnelPorts" = none := by
      rw [Doc.get?_erase, if_pos rfl]
    rw [if_pos hports, hports]
    simp [metaPorts, hnone, sortedPorts]
  · have hsome : (panelMeta.set "tunnelPorts" (portsDoc ports)).get? "tunnelPorts" =
        some (portsDoc ports) := by
      rw [Doc.get?_set hmeta, if_pos rfl]
    rw [if_neg hports]
    have hentries : (some (portsDoc ports)).bind Doc.dict? =
        some ((sortedPorts ports).map fun t => (t.1, t.2.doc)) := rfl
    unfold metaPorts
    rw [hsome, hentries]
    simp [List.filterMap_map]

/-- A tunnel port that is read is neither the own port nor a protected one. -/
theorem parseTunnelPort_ok {cfg : Config} {port : Port} {entry : String × Doc}
    {t : String × Port} (h : parseTunnelPort cfg port entry = .ok t) :
    t.2 ≠ port ∧ t.2.number ∉ cfg.protectedPorts := by
  simp only [parseTunnelPort, except_bind_ok_iff, check_ok_iff, insist_ok_iff,
    except_pure_ok_iff] at h
  obtain ⟨_, _, p, _, _, hport, _, hprotected, rfl⟩ := h
  exact ⟨by simpa using hport, by simpa using hprotected⟩

/-- The tunnel ports that are read are neither the own port nor protected ones. -/
theorem parseTunnelPorts_ok {cfg : Config} {port : Port} {panelMeta : Doc}
    {ports : List (String × Port)} (h : parseTunnelPorts cfg port panelMeta = .ok ports) :
    ∀ t ∈ ports, t.2 ≠ port ∧ t.2.number ∉ cfg.protectedPorts := by
  intro t ht
  simp only [parseTunnelPorts, except_bind_ok_iff, insist_ok_iff] at h
  obtain ⟨entries, _, hports⟩ := h
  obtain ⟨entry, _, hentry⟩ := exists_of_mem_mapM hports ht
  exact parseTunnelPort_ok hentry

/-- A row that may be stored has been checked. -/
theorem parseInbound_parsed {py : Builtins} {cfg : Config} {fresh : String} {data : Doc}
    {v : Inbound} {ports : List (String × Port)}
    (h : parseInbound py cfg fresh data = .ok (v, ports)) : Parsed cfg v ports := by
  simp only [parseInbound, except_bind_ok_iff, check_ok_iff, insist_ok_iff,
    except_pure_ok_iff, Prod.mk.injEq] at h
  obtain ⟨_, _, _, _, proto, _, port, _, _, hport, _, _, _, _, _, _, tag, htag, _, _, _, _, _, _,
    panelMeta, hmeta, tunnelPorts, htunnel, _, _, _, _, _, _, _, _, rfl, rfl⟩ := h
  have hdict : panelMeta.isDict = true := by
    have hobject := insist_ok_iff.mp hmeta
    exact (Option.filter_eq_some_iff.mp hobject).2
  exact {
    tag := by
      have hfilter := (Option.filter_eq_some_iff.mp htag).2
      simp only [Bool.and_eq_true, decide_eq_true_eq] at hfilter
      exact hfilter.2
    port := by simpa using hport
    tunnel := parseTunnelPorts_ok htunnel
    stored := metaPorts_storedMeta hdict ports }

/-! ## Rows apart from each other -/

/-- A port that is stored under a key is found under it. -/
theorem lookup_ports {key : String} {p : Port} {fields : List (String × Doc)}
    (h : (Doc.field? fields key).bind Port.ofDoc? = some p) :
    List.lookup key (fields.filterMap fun f => (Port.ofDoc? f.2).map fun q => (f.1, q)) =
      some p := by
  induction fields with
  | nil => simp [Doc.field?] at h
  | cons field fields ih =>
      rw [Doc.field?_cons] at h
      by_cases hkey : field.1 = key
      · have hport : Port.ofDoc? field.2 = some p := by simpa [hkey] using h
        simp [hport, hkey]
      · have hrest := ih (by simpa [hkey] using h)
        have hne : (key == field.1) = false := by
          simpa using fun heq : key = field.1 => hkey heq.symm
        cases hport : Port.ofDoc? field.2 with
        | none => simpa [List.filterMap_cons, hport] using hrest
        | some q => simpa [List.filterMap_cons, hport, List.lookup_cons, hne] using hrest

/-- The local port is the one that the other rows are compared with. -/
theorem lookup_metaPorts {panelMeta : Doc} {p : Port} (h : localPort panelMeta = some p) :
    (metaPorts panelMeta).lookup "local" = some p := by
  unfold localPort at h
  unfold metaPorts
  cases hports : panelMeta.get? "tunnelPorts" with
  | none => simp [hports] at h
  | some d =>
      cases d with
      | dict fields =>
          rw [hports] at h
          exact lookup_ports h
      | atom a =>
          have hnone : (Doc.atom a).get? "local" = none := rfl
          simp [hports, hnone] at h
      | list items =>
          have hnone : (Doc.list items).get? "local" = none := rfl
          simp [hports, hnone] at h

/-- Two rows whose listeners can run beside each other. -/
structure Apart (v r : Inbound) : Prop where
  tag : v.tag ≠ r.tag
  port : v.port ≠ r.port
  tunnel : ∀ p, localPort v.panelMeta = some p → localPort r.panelMeta ≠ some p
  here : ∀ p, localPort v.panelMeta = some p → deployLocal r.panelMeta = true → r.port ≠ p
  there : ∀ p, localPort r.panelMeta = some p → deployLocal v.panelMeta = true → v.port ≠ p

/-- It does not matter which of two rows was edited last. -/
theorem Apart.symm {v r : Inbound} (h : Apart v r) : Apart r v where
  tag := h.tag.symm
  port := h.port.symm
  tunnel := fun p hr hv => h.tunnel p hv hr
  here := h.there
  there := h.here

theorem deployedOn_local (panelMeta : Doc) :
    deployedOn panelMeta "local" = .ok (deployLocal panelMeta) := by
  simp [deployedOn]

/-- The local port of a checked row was among those that were checked. -/
theorem Parsed.mem_local {cfg : Config} {v : Inbound} {ports : List (String × Port)} {p : Port}
    (h : Parsed cfg v ports) (hp : localPort v.panelMeta = some p) : ("local", p) ∈ ports := by
  have hlookup := lookup_metaPorts hp
  rw [h.stored] at hlookup
  obtain ⟨before, after, hsplit, _⟩ := List.lookup_eq_some_iff.mp hlookup
  have hmem : ("local", p) ∈ sortedPorts ports := by simp [hsplit]
  exact (List.perm_insertionSort _ ports).mem_iff.mp hmem

/-- The checks of a row against another one keep their listeners apart. -/
theorem checkApart_apart {cfg : Config} {v r : Inbound} {ports : List (String × Port)}
    (hparsed : Parsed cfg v ports) (h : checkApart v ports r = .ok ()) : Apart v r := by
  simp only [checkApart, except_bind_ok_iff, check_ok_iff, except_forM_ok_iff] at h
  obtain ⟨_, htag, _, hport, _, hown, hother⟩ := h
  have hne : r.port ≠ v.port := by simpa using hport
  exact {
    tag := fun heq => by simp [heq] at htag
    port := hne.symm
    tunnel := by
      intro p hp hr
      obtain ⟨_, hlookup, _⟩ := hown _ (hparsed.mem_local hp)
      simp [lookup_metaPorts hr] at hlookup
    here := by
      intro p hp hdeployed heq
      obtain ⟨_, _, deployed, hon, hfree⟩ := hown _ (hparsed.mem_local hp)
      rw [deployedOn_local, hdeployed] at hon
      cases hon
      simp [heq] at hfree
    there := by
      intro p hp hdeployed heq
      obtain ⟨before, after, hsplit, _⟩ := List.lookup_eq_some_iff.mp (lookup_metaPorts hp)
      have hmem : ("local", p) ∈ metaPorts r.panelMeta := by simp [hsplit]
      obtain ⟨deployed, hon, hfree⟩ := hother _ hmem
      rw [deployedOn_local, hdeployed] at hon
      cases hon
      simp [heq] at hfree }

/-! ## Accepted edits -/

theorem inbound_ok_iff {s : CoreStore} {i : ℕ} {v : Inbound} :
    s.inbound i = .ok v ↔ s.inbounds.get? i = some v := by
  unfold CoreStore.inbound
  cases h : s.inbounds.get? i with
  | none => simp
  | some r => simp

/-- What an accepted save has checked and written. -/
theorem saveInbound_ok {py : Builtins} {cfg : Config} {fresh : String} {s t : CoreStore}
    {data : Doc} {i : Option ℕ} (h : saveInbound py cfg fresh s data i = .ok t) :
    ∃ v ports, parseInbound py cfg fresh data = .ok (v, ports) ∧
      (∀ j, i = some j → (s.inbounds.get? j).isSome) ∧
      (∀ j r, s.inbounds.get? j = some r → i ≠ some j → Apart v r) ∧ t = s.putInbound v i := by
  simp only [saveInbound, except_bind_ok_iff, except_forM_ok_iff, except_pure_ok_iff] at h
  obtain ⟨_, _, ⟨v, ports⟩, hparse, _, hprotocol, _, hapart, ht⟩ := h
  have hparsed := parseInbound_parsed hparse
  have hexists : ∀ j, i = some j → (s.inbounds.get? j).isSome := by
    intro j hj
    subst hj
    simp only [Option.elim_some, CoreStore.checkProtocol, except_bind_ok_iff, inbound_ok_iff]
      at hprotocol
    obtain ⟨old, hold, _⟩ := hprotocol
    simp [hold]
  have hothers : ∀ j r, s.inbounds.get? j = some r → i ≠ some j → Apart v r := by
    intro j r hr hne
    have hrow := hapart (j, r) (Table.get?_eq_some_iff.mp hr)
    rw [if_neg (Ne.symm hne)] at hrow
    exact checkApart_apart hparsed hrow
  exact ⟨v, ports, hparse, hexists, hothers, ht⟩

/-- What an accepted deletion has checked and written. -/
theorem deleteInbound_ok {cfg : Config} {s t : CoreStore} {i : ℕ}
    (h : deleteInbound cfg s i = .ok t) :
    (∀ host ∈ s.hosts, (host.get? "inboundId").bind Doc.int? ≠ some (i : ℤ)) ∧
      t = { s with inbounds := s.inbounds.erase i } := by
  simp only [deleteInbound, except_bind_ok_iff, check_ok_iff, except_pure_ok_iff] at h
  obtain ⟨_, _, row, _, _, _, _, hhosts, _, _, rfl⟩ := h
  refine ⟨fun host hmem heq => ?_, rfl⟩
  simp only [Bool.not_eq_true', List.any_eq_false, decide_eq_true_eq] at hhosts
  exact hhosts host hmem heq

end Core
end DarkXray
