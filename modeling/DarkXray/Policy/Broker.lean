import Mathlib.Data.List.Dedup
import Mathlib.Data.List.Sort
import DarkXray.Access.Accounts
import DarkXray.Library.Expiry
import DarkXray.Library.Preconditions
import DarkXray.Policy.Basics

/-!
# The firewall broker

{lit}`guardd`: a small daemon owns two sets of nftables.  An element of a set is an address with a
port, and the kernel drops the packets from that address to that port until the element times
out.  The panel sends messages to the broker, which keeps a lease of its own for every element
that it adds.

Addresses are those of {lit}`ipaddress`, which is a parameter, as is what the kernel does with an
element that is added again.

Main results:

- Theorem {lit}`fromDict_ok`: what an accepted configuration guarantees.
- Theorem {lit}`brokerIp_ok`: what an accepted address is.
-/

namespace DarkXray
namespace Policy

open Library

/-! ## Values -/

/-- A field of a message or of the configuration. -/
inductive Arg where
  /-- A scalar; {lit}`Value.other` is a number that is no integer. -/
  | value (v : Value)
  /-- A list; an item that is a list or an object itself is {lit}`Value.other`. -/
  | list (items : List Value)
  | dict
deriving DecidableEq

/-- An object. -/
abbrev Fields : Type :=
  List (String × Arg)

/-- Exceptions of the broker. -/
inductive BrokerError where
  /-- {lit}`PolicyError`. -/
  | policy (message : String)
  /-- {lit}`ValueError`. -/
  | value
  /-- {lit}`TypeError`. -/
  | type
  /-- {lit}`PolicyError` of {lit}`_run`; the text is that of {lit}`nft`. -/
  | refused
  /-- An {lit}`OSError` or a {lit}`SubprocessError`. -/
  | process
deriving DecidableEq, Repr

/-- {lit}`ipaddress`: addresses, their canonical texts, and networks by their texts. -/
structure IpLibrary (α : Type) where
  /-- {lit}`ip_address`. -/
  address : String → Option α
  /-- {lit}`ipv4_mapped`; there is none of an IPv4 address. -/
  ipv4Mapped : α → Option α
  compressed : α → String
  isGlobal : α → Bool
  isMulticast : α → Bool
  /-- {lit}`str(ip_network(x, strict=False))`. -/
  network : Value → Option String
  /-- An address has the version of a network and is in it. -/
  within : String → α → Option Bool

/-- {lit}`integer` of a field. -/
def integerArg (value : Arg) (minimum maximum : ℤ) : Except BrokerError ℤ :=
  let checked : Except Failure ℤ :=
    match value with
    | .value v => integer v minimum maximum
    | _ => integer .other minimum maximum
  checked.mapError fun e => .policy e.message

/-- {lit}`normalize_ports`. -/
def normalizePorts (values : Arg) : Except BrokerError (List ℤ) :=
  match values with
  | .list items =>
      if 512 < items.length then
        .error (.policy "Ports must be a list of at most 512 explicit integers")
      else do
        let ports ← items.mapM fun v => integerArg (.value v) 1 65535
        return ports.dedup.insertionSort (· ≤ ·)
  | _ => .error (.policy "Ports must be a list of at most 512 explicit integers")

/-- The text between brackets, if there are some. -/
def unbracket (text : String) : String :=
  if text.startsWith "[" && text.endsWith "]" then
    String.ofList (text.toList.drop 1).dropLast
  else text

variable {α : Type} (lib : IpLibrary α)

/-- {lit}`normalize_ip`. -/
def normalizeIp (raw : Arg) : Except BrokerError String :=
  match raw with
  | .value (.str raw) =>
      if '%' ∈ raw.toList then
        .error (.policy "Address must be a plain IPv4/IPv6 literal without a zone")
      else
        match lib.address (unbracket (Access.strip raw)) with
        | none => .error (.policy "Invalid IP literal")
        | some a => .ok (lib.compressed ((lib.ipv4Mapped a).getD a))
  | _ => .error (.policy "Address must be a plain IPv4/IPv6 literal without a zone")

/-! ## Configuration -/

/-- {lit}`BrokerConfig`. -/
structure BrokerConfig where
  allowedUid : ℤ
  allowedPorts : List ℤ
  protectedPorts : List ℤ
  socketPath : String
  directSourceVerified : Bool
  maxBanSeconds : ℤ
  exemptIps : List String
  nftBinary : String
  allowRuntimePortUpdates : Bool
deriving DecidableEq

/-- {lit}`value.get(key, default)`. -/
def getArg (fields : Fields) (key : String) (default : Arg) : Arg :=
  (fields.lookup key).getD default

/-- A field that has to be a Boolean. -/
def boolArg (value : Arg) (message : String) : Except BrokerError Bool :=
  match value with
  | .value (.bool b) => .ok b
  | _ => .error (.policy message)

/-- The list of integers of a default. -/
def portsArg (ports : List ℤ) : Arg :=
  .list (ports.map Value.int)

/-- The networks of {lit}`exempt_ips`. -/
def exemptArg (value : Arg) : Except BrokerError (List String) :=
  match value with
  | .list items =>
      if 512 < items.length then .error (.policy "Invalid exemptions")
      else (items.mapM lib.network).elim (.error (.policy "Invalid exempt CIDR")) .ok
  | _ => .error (.policy "Invalid exemptions")

/-- {lit}`allowed_keys`. -/
def configKeys : List String :=
  ["allowed_uid", "allowed_ports", "protected_ports", "socket_path", "direct_source_verified",
    "max_ban_seconds", "exempt_ips", "nft_binary", "allow_runtime_port_updates"]

/-- {lit}`BrokerConfig.from_dict`; a value that is no object is {lit}`none`. -/
def BrokerConfig.fromDict (value : Option Fields) : Except BrokerError BrokerConfig := do
  let fields ← value.elim (.error (.policy "Guard config must be an object")) .ok
  ensure (∀ f ∈ fields, f.1 ∈ configKeys) (.policy "Unknown guard configuration field")
  let uid ← integerArg (getArg fields "allowed_uid" (.value .none)) 1 (2 ^ 31 - 1)
  let ports ← normalizePorts (getArg fields "allowed_ports" (.list []))
  let guarded ← normalizePorts (getArg fields "protected_ports" (portsArg [22, 2087, 10085]))
  let runtimeUpdates ← boolArg (getArg fields "allow_runtime_port_updates" (.value (.bool false)))
    "allow_runtime_port_updates must be boolean"
  ensure (¬ (ports = [] ∧ runtimeUpdates = false) ∧ 22 ∈ guarded ∧ ∀ p ∈ ports, p ∉ guarded)
    (.policy ("Empty data ports or protected-port overlap; include actual SSH, panel and core " ++
      "API ports"))
  let verified ← boolArg (getArg fields "direct_source_verified" (.value (.bool false)))
    "direct_source_verified must be boolean"
  let sock := getArg fields "socket_path" (.value (.str "/run/dark-xray-guard/control.sock"))
  ensure (sock = .value (.str "/run/dark-xray-guard/control.sock"))
    (.policy "Only the fixed production Unix socket is supported")
  let nft := getArg fields "nft_binary" (.value (.str "/usr/sbin/nft"))
  ensure (nft ∈ ["/usr/sbin/nft", "/sbin/nft", "/usr/bin/nft"].map fun s => Arg.value (.str s))
    (.policy "Unexpected nft executable path")
  let exempt ← exemptArg lib (getArg fields "exempt_ips" (.list []))
  let seconds ← integerArg (getArg fields "max_ban_seconds" (.value (.int 3600))) 10 86400
  return {
    allowedUid := uid
    allowedPorts := ports
    protectedPorts := guarded
    socketPath := "/run/dark-xray-guard/control.sock"
    directSourceVerified := verified
    maxBanSeconds := seconds
    exemptIps := exempt
    nftBinary := (["/usr/sbin/nft", "/sbin/nft", "/usr/bin/nft"].find? fun s =>
      nft = .value (.str s)).getD ""
    allowRuntimePortUpdates := runtimeUpdates }

/-! ## Sets of the kernel -/

/-- The sets of the table. -/
inductive SetName where
  | sources4
  | sources6
deriving DecidableEq, Repr

/-- {lit}`'sources6' if ':' in ip else 'sources4'`. -/
def setName (ip : String) : SetName :=
  if ':' ∈ ip.toList then .sources6 else .sources4

/-- An element: the set it is in, its address and its port. -/
abbrev Element : Type :=
  SetName × String × ℤ

/-- The element of an address and a port. -/
def element (lease : String × ℤ) : Element :=
  (setName lease.1, lease)

/-- What the broker has {lit}`nft` do. -/
inductive NftCommand where
  | listTable
  | getElement (e : Element)
  | deleteElement (e : Element)
  | addElements (elements : List Element) (seconds : ℤ)
  | flush
deriving DecidableEq

/-- How a command ends. -/
inductive NftResult where
  | completed
  /-- {lit}`nft` fails, and nothing has been done. -/
  | refused
  /-- {lit}`nft` cannot be run or does not end in time, and nothing has been done. -/
  | raised
deriving DecidableEq, Repr

/-- What surrounds a message: the clock, which only moves forwards, and how each command ends.
The broker reads the clock once. -/
structure Environment where
  began : ℚ
  /-- {lit}`time.time()`. -/
  now : ℚ
  ended : ℚ
  moment : NftCommand → ℚ
  result : NftCommand → NftResult
  /-- The expiry of an element that is added again, from the old and the new one. -/
  again : ℚ → ℚ → ℚ
  began_le_now : began ≤ now
  now_le_ended : now ≤ ended
  began_le_moment : ∀ c, began ≤ moment c
  moment_le_ended : ∀ c, moment c ≤ ended
  /-- The broker reads the clock before it adds elements. -/
  now_le_moment : ∀ elements seconds, now ≤ moment (.addElements elements seconds)

/-- The broker, and the sets of the kernel: they keep an element until it expires. -/
structure FirewallState where
  leases : Table (String × ℤ) ℚ
  runtimePorts : List ℤ
  ready : Bool
  elements : Table Element ℚ

/-- Calls of the broker. -/
abbrev BrokerCall (β : Type) : Type :=
  Tx FirewallState BrokerError β

section Commands

variable (env : Environment)

/-- {lit}`_run` of a script: what it does, unless it fails. -/
def runScript (command : NftCommand) (effect : BrokerCall Unit) : BrokerCall Unit :=
  match env.result command with
  | .completed => effect
  | .refused => Tx.raise .refused
  | .raised => Tx.raise .process

/-- {lit}`get element`: whether {lit}`nft` finds it. -/
def getElement (e : Element) : BrokerCall Bool :=
  match env.result (.getElement e) with
  | .completed => Tx.read fun s => s.elements.alive e (env.moment (.getElement e))
  | .refused => return false
  | .raised => Tx.raise .process

/-- {lit}`delete element`; the kernel refuses to delete what is not there. -/
def deleteElement (e : Element) : BrokerCall Unit :=
  runScript env (.deleteElement e) do
    let s ← Tx.read fun s => s.elements.alive e (env.moment (.deleteElement e))
    Tx.require (s = true) .refused
    Tx.write fun s => { s with elements := s.elements.erase e }

/-- {lit}`add element`. -/
def addElements (elements : List Element) (seconds : ℤ) : BrokerCall Unit :=
  let moment := env.moment (.addElements elements seconds)
  runScript env (.addElements elements seconds) <| Tx.write fun s =>
    { s with elements := s.elements.refreshAll env.again moment (moment + seconds) elements }

end Commands

/-! ## Operations -/

/-- What {lit}`status` returns. -/
structure BrokerStatus where
  allowedPorts : List ℤ
  protectedPorts : List ℤ
  runtimePortUpdates : Bool
  directSourceVerified : Bool
  maxBanSeconds : ℤ
  activeLeases : ℕ
deriving DecidableEq

/-- What the operations return. -/
inductive BrokerAnswer where
  | status (status : BrokerStatus)
  | cleared
  | ports (allowed protectedPorts : List ℤ)
  | released (elements : ℕ)
  | accepted
deriving DecidableEq

/-- The operations. -/
inductive Operation where
  | status
  | clear
  | setPorts
  | unban
  | ban
deriving DecidableEq, Repr

/-- The names of the operations, with the fields of their messages. -/
def operations : List (String × Operation × List String) :=
  [("status", .status, ["operation"]),
    ("clear", .clear, ["operation"]),
    ("set_ports", .setPorts, ["operation", "ports"]),
    ("unban", .unban, ["operation", "ip"]),
    ("ban", .ban, ["operation", "ip", "ports", "seconds"])]

/-- The operation of a message, which has to have its fields; a list or an object cannot be looked
up. -/
def operationOf (fields : Fields) : Except BrokerError Operation :=
  match getArg fields "operation" (.value .none) with
  | .value (.str name) =>
      match operations.lookup name with
      | some (operation, keys) =>
          if (∀ f ∈ fields, f.1 ∈ keys) ∧ ∀ k ∈ keys, k ∈ fields.map Prod.fst then .ok operation
          else .error (.policy "Unknown operation or fields")
      | none => .error (.policy "Unknown operation or fields")
  | .value _ => .error (.policy "Unknown operation or fields")
  | .list _ => .error .type
  | .dict => .error .type

variable (cfg : BrokerConfig) (env : Environment)

/-- Whether a network of the exemptions has an address. -/
def exemptBy (addr : α) : List String → Except BrokerError Bool
  | [] => .ok false
  | network :: rest =>
      match lib.within network addr with
      | none => .error .value
      | some true => .ok true
      | some false => exemptBy addr rest

/-- {lit}`_ip`. -/
def brokerIp (raw : Arg) : Except BrokerError String := do
  let ip ← normalizeIp lib raw
  let addr ← (lib.address ip).elim (.error .value) .ok
  if !lib.isGlobal addr || lib.isMulticast addr then
    .error (.policy "Special, private, reserved or exempt source; ban refused")
  else
    if ← exemptBy lib addr cfg.exemptIps then
      .error (.policy "Special, private, reserved or exempt source; ban refused")
    else return ip

/-- {lit}`status`. -/
def status : BrokerCall BrokerStatus := do
  let ready ← Tx.read FirewallState.ready
  Tx.require (ready = true) (.policy "Firewall broker not initialized")
  runScript env .listTable (return ())
  Tx.write fun s => { s with leases := s.leases.purge env.now }
  Tx.read fun s => {
    allowedPorts := s.runtimePorts
    protectedPorts := cfg.protectedPorts
    runtimePortUpdates := cfg.allowRuntimePortUpdates
    directSourceVerified := cfg.directSourceVerified
    maxBanSeconds := cfg.maxBanSeconds
    activeLeases := s.leases.rows.length }

/-- {lit}`clear`. -/
def clear : BrokerCall BrokerAnswer := do
  runScript env .flush (Tx.write fun s => { s with elements := Table.empty })
  Tx.write fun s => { s with leases := Table.empty }
  return .cleared

/-- The body of both loops: an element that is found is deleted, and its lease is dropped. -/
def release (lease : String × ℤ) : BrokerCall Bool := do
  let got ← getElement env (element lease)
  Tx.when (got = true) (deleteElement env (element lease))
  Tx.write fun s => { s with leases := s.leases.erase lease }
  return got

/-- Release some elements: how many were found. -/
def releaseAll : List (String × ℤ) → BrokerCall ℕ
  | [] => return 0
  | lease :: rest => do
      let got ← release env lease
      let n ← releaseAll rest
      return (if got then n + 1 else n)

/-- {lit}`set_ports`. -/
def setPorts (values : Arg) : BrokerCall BrokerAnswer := do
  Tx.require (cfg.allowRuntimePortUpdates = true)
    (.policy "Root has not approved runtime data-port updates")
  let ports ← Tx.ofExcept (normalizePorts values)
  Tx.require (¬ 1024 < ports.length ∧ ∀ p ∈ ports, p ∉ cfg.protectedPorts)
    (.policy "Runtime data ports overlap protected management ports")
  let s ← Tx.read id
  let _ ← releaseAll env ((s.leases.rows.map Prod.fst).filter fun lease =>
    lease.2 ∈ s.runtimePorts && lease.2 ∉ ports)
  Tx.write fun s => { s with runtimePorts := ports }
  return .ports ports cfg.protectedPorts

/-- {lit}`unban`. -/
def unban (ip : String) : BrokerCall BrokerAnswer := do
  let ports ← Tx.read FirewallState.runtimePorts
  let n ← releaseAll env (ports.map fun port => (ip, port))
  let _ ← status cfg env
  return .released n

/-- {lit}`ban`. -/
def ban (ip : String) (ports seconds : Arg) : BrokerCall BrokerAnswer := do
  Tx.require (cfg.directSourceVerified = true)
    (.policy "Root has not approved direct packet-source enforcement")
  let ports ← Tx.ofExcept (normalizePorts ports)
  let runtime ← Tx.read FirewallState.runtimePorts
  Tx.require (ports ≠ [] ∧ (∀ p ∈ ports, p ∈ runtime) ∧ ∀ p ∈ ports, p ∉ cfg.protectedPorts)
    (.policy "Unapproved or management port")
  let seconds ← Tx.ofExcept (integerArg seconds 10 cfg.maxBanSeconds)
  Tx.write fun s => { s with leases := s.leases.purge env.now }
  let leases ← Tx.read FirewallState.leases
  Tx.require (¬ 100000 < leases.rows.length + ports.length) (.policy "Lease capacity reached")
  let remaining := (ports.map fun port => (ip, port)).filter fun lease =>
    !leases.alive lease env.now
  Tx.when (remaining ≠ []) do
    addElements env (remaining.map element) seconds
    Tx.write fun s => { s with leases := s.leases.putAll (env.now + seconds) remaining }
  return .accepted

/-- {lit}`dispatch`; a message that is no object is {lit}`none`. -/
def dispatch (message : Option Fields) (uid : ℤ) : BrokerCall BrokerAnswer := do
  Tx.require (uid = cfg.allowedUid) (.policy "Unix peer UID is not authorized")
  let fields ← Tx.demand message (.policy "Message must be an object")
  let operation ← Tx.ofExcept (operationOf fields)
  match operation with
  | .status => do
      let status ← status cfg env
      return .status status
  | operation => do
      let ready ← Tx.read FirewallState.ready
      Tx.require (ready = true) (.policy "Firewall broker not initialized")
      match operation with
      | .clear => clear env
      | .setPorts => setPorts cfg env (getArg fields "ports" (.list []))
      | operation => do
          let ip ← Tx.ofExcept (brokerIp lib cfg (getArg fields "ip" (.value .none)))
          match operation with
          | .unban => unban cfg env ip
          | _ =>
              ban cfg env ip (getArg fields "ports" (.list []))
                (getArg fields "seconds" (.value .none))

/-! ## What the checks accept -/

section Checks

variable {lib} {cfg}

theorem integerArg_ok {value : Arg} {minimum maximum n : ℤ}
    (h : integerArg value minimum maximum = .ok n) : minimum ≤ n ∧ n ≤ maximum := by
  have hvalue : ∀ v : Value, (integer v minimum maximum).mapError
      (fun e => BrokerError.policy e.message) = .ok n → minimum ≤ n ∧ n ≤ maximum := by
    intro v hv
    unfold integer at hv
    split at hv
    · split at hv
      · rename_i hrange
        cases hv
        exact hrange
      · cases hv
    · cases hv
  unfold integerArg at h
  cases value with
  | value v => exact hvalue v h
  | list items => exact hvalue .other h
  | dict => exact hvalue .other h

/-- What an accepted configuration guarantees: no port that the panel may ask for at the start is
one of the management, and that of SSH is among these. -/
theorem fromDict_ok {value : Option Fields} (h : BrokerConfig.fromDict lib value = .ok cfg) :
    22 ∈ cfg.protectedPorts ∧ (∀ p ∈ cfg.allowedPorts, p ∉ cfg.protectedPorts) ∧
      10 ≤ cfg.maxBanSeconds ∧ cfg.maxBanSeconds ≤ 86400 := by
  unfold BrokerConfig.fromDict at h
  simp only [except_bind_ok_iff, ensure_ok_iff, except_pure_ok_iff] at h
  obtain ⟨fields, -, -, -, uid, -, ports, -, guarded, -, updates, -, -, hports, verified, -, -, -,
    -, -, exempt, -, seconds, hseconds, rfl⟩ := h
  obtain ⟨hleast, hmost⟩ := integerArg_ok hseconds
  exact ⟨hports.2.1, hports.2.2, hleast, hmost⟩

/-- Accepted ports are all different. -/
theorem normalizePorts_nodup {values : Arg} {ports : List ℤ}
    (h : normalizePorts values = .ok ports) : ports.Nodup := by
  unfold normalizePorts at h
  split at h
  · split at h
    · cases h
    · rw [except_bind_ok_iff] at h
      obtain ⟨found, -, h⟩ := h
      rw [except_pure_ok_iff] at h
      rw [h]
      exact (List.perm_insertionSort _ _).nodup_iff.mpr (List.nodup_dedup found)
  · cases h

/-- An address that may be banned: it is routable, and no network exempts it. -/
def Bannable (lib : IpLibrary α) (cfg : BrokerConfig) (ip : String) : Prop :=
  ∃ addr, lib.address ip = some addr ∧ lib.isGlobal addr = true ∧
    lib.isMulticast addr = false ∧ ∀ network ∈ cfg.exemptIps, lib.within network addr = some false

theorem exemptBy_false {addr : α} {networks : List String}
    (h : exemptBy lib addr networks = .ok false) :
    ∀ network ∈ networks, lib.within network addr = some false := by
  induction networks with
  | nil => exact fun _ hmem => (List.not_mem_nil hmem).elim
  | cons first rest ih =>
      unfold exemptBy at h
      split at h
      · cases h
      · cases h
      · rename_i hfirst
        intro network hmem
        rcases List.mem_cons.mp hmem with rfl | hrest
        · exact hfirst
        · exact ih h network hrest

/-- What an accepted address is. -/
theorem brokerIp_ok {raw : Arg} {ip : String} (h : brokerIp lib cfg raw = .ok ip) :
    normalizeIp lib raw = .ok ip ∧ Bannable lib cfg ip := by
  unfold brokerIp at h
  rw [except_bind_ok_iff] at h
  obtain ⟨text, htext, h⟩ := h
  rw [except_bind_ok_iff] at h
  obtain ⟨addr, haddr, h⟩ := h
  split at h
  · cases h
  rename_i hspecial
  rw [except_bind_ok_iff] at h
  obtain ⟨exempt, hexempt, h⟩ := h
  cases exempt with
  | true => cases h
  | false =>
      rw [if_neg Bool.false_ne_true, except_pure_ok_iff] at h
      subst h
      simp only [Bool.or_eq_true, Bool.not_eq_true', not_or, Bool.not_eq_false,
        Bool.not_eq_true] at hspecial
      refine ⟨htext, addr, ?_, hspecial.1, hspecial.2, exemptBy_false hexempt⟩
      cases hparse : lib.address ip with
      | none =>
          rw [hparse] at haddr
          cases haddr
      | some found =>
          rw [hparse] at haddr
          cases haddr
          rfl

end Checks

end Policy
end DarkXray
