import DarkXray.Management.Reconciler
import Mathlib.Data.List.Sort

/-!
# The commands of the manager

What the owner of the panel, its representatives and the background thread ask of
{lit}`Manager`: configure a representative, create, adopt, edit, reset and delete clients, one by
one or in batches, and recover what failed.  The reports that the commands return are left out.

Main definitions:

- {lit}`stageChecked`: the checks and the transaction of a new client.
- {lit}`Command`: what is asked of the manager, and {lit}`Command.run`: how it answers.
-/

namespace DarkXray
namespace Management

open Library Policy Usage
open DarkXray.Core (Record ClientRow ClientStore sortedSet sameSubId emailRe writable)

/-! ## Checks -/

/-- {lit}`Actor.require`. -/
def requireRight (actor : Actor) (action owner : String) : Call Unit :=
  Tx.require (actor.can "clients" action owner = true) (.failure .permissionDenied)

/-- {lit}`Manager.own_row`. -/
def ownRow (actor : Actor) (email action : String) : Call Client := do
  demand (emailRe email = true) "Invalid client identity"
  let u ← Tx.read fun s => s.policy.clients.get? email
  let u ← Tx.demand u (policyError "Managed client not found")
  requireRight actor action u.owner
  return u

/-- {lit}`Manager.profile`. -/
def profileOf (owner : String) : Call Profile := do
  let p ← Tx.read fun s => s.profiles.get? owner
  Tx.demand p (policyError "Owner profile not configured")

/-- {lit}`MANAGED_CLIENT_PROTOCOLS`. -/
def managedClientProtocols : List String :=
  ["vless", "vmess", "trojan", "shadowsocks", "socks", "http"]

/-- A field of an inbound, as a text. -/
def fieldText (inbound : Doc) (key : String) : String :=
  ((inbound.get? key).bind Doc.str?).getD ""

/-- Protocols of inbounds that no managed client can use. -/
def unsupportedProtocols (inbounds : List (ℤ × Doc)) (ids : List ℤ) : List String :=
  (ids.map fun i => (inbounds.lookup i).elim "" fun d => fieldText d "protocol").filter
    (· ∉ managedClientProtocols)

/-- {lit}`sorted(set(names))`, joined. -/
def joinSorted (names : List String) : String :=
  ",".intercalate (names.dedup.mergeSort fun a b => decide (a ≤ b))

/-- {lit}`Manager.check_inbounds`. -/
def checkInbounds (owner : String) (ids : List ℤ) : Call Unit := do
  demand (ids ≠ [] ∧ ids.length ≤ 256 ∧ ∀ i ∈ ids, 1 ≤ i) "Select 1..256 valid inbound IDs"
  demand ids.Nodup "Duplicate inbound IDs"
  let p ← profileOf owner
  Tx.require (ids ⊆ p.allowed) (.failure .permissionDenied)
  let inbounds ← Tx.read Panel.inbounds
  demand (ids ⊆ inbounds.map Prod.fst) "Inbound no longer exists"
  let unsupported := unsupportedProtocols inbounds ids
  demand (unsupported = [])
    ("Managed clients require credential-bearing inbounds; unsupported: " ++ joinSorted unsupported)

/-- A flow does not work on an inbound. -/
def flowIncompatible (inbound : Doc) : Bool :=
  let settings := inbound.getD "streamSettings" (.dict [])
  fieldText inbound "protocol" = "vless" &&
    (((settings.getD "network" (.str "tcp")).str?.getD "?") ∉ ["tcp", "raw"] ||
      ((settings.getD "security" (.str "none")).str?.getD "?") ∉ ["tls", "reality"])

/-- The name that a message gives to an inbound. -/
def inboundLabel (id : ℤ) (inbound : Doc) : String :=
  if fieldText inbound "remark" ≠ "" then fieldText inbound "remark"
  else if fieldText inbound "tag" ≠ "" then fieldText inbound "tag"
  else toString id

/-- {lit}`Manager.validate_client_transport`. -/
def validateClientTransport (client : Doc) (ids : List ℤ) : Call Unit := do
  let inbounds ← Tx.read Panel.inbounds
  let bad := ids.filterMap fun i =>
    ((inbounds.lookup i).filter flowIncompatible).map (inboundLabel i)
  demand (client.truthyAt "flow" = false ∨ bad = [])
    ("XTLS Vision flow is only valid on VLESS TCP/RAW with TLS/REALITY; incompatible inbound(s): "
      ++ ", ".intercalate (bad.take 8))

/-- A field as the operators {lit}`==` and {lit}`>` compare it with an integer. -/
def rawInt (d : Doc) (key : String) : Except Halt ℤ :=
  match d.get? key with
  | none => .ok 0
  | some (.atom (.bool b)) => .ok b.toInt
  | some (.atom (.int n)) => .ok n
  | some _ => .error (.escaped "TypeError")

/-- The address limit of a representative. -/
def checkIpCap (texts : Texts) (message : String) (cap : ℤ) (d : Doc) : Call Unit := do
  let ip ← Tx.ofExcept (intOr0 texts d "limitIp")
  demand (ip ≤ cap) message
  let total ← Tx.ofExcept (if ip = 0 then intOr0 texts d "totalGB" else .ok 0)
  demand (¬(ip = 0 ∧ total = 0))
    "Unlimited IP is only available to volumetric services under this reseller policy"

/-- The device limit of a representative. -/
def checkHwidCap (message : String) (cap : ℤ) (d : Doc) : Call Unit := do
  let hwid ← Tx.ofExcept (rawInt d "limitHwid")
  demand (hwid ≠ 0 ∧ hwid ≤ cap) message

/-- The limits of a representative. -/
def checkCaps (texts : Texts) (ipMessage hwidMessage : String) (p : Profile) (d : Doc) :
    Call Unit := do
  Tx.when (p.maxClientIps ≠ 0) (checkIpCap texts ipMessage p.maxClientIps d)
  Tx.when (p.maxClientHwid ≠ 0) (checkHwidCap hwidMessage p.maxClientHwid d)

/-- {lit}`Manager.validate_client`, with its result as a record. -/
def validated (texts : Texts) (data : Doc) (part : Bool) : Call Record := do
  let d ← ofFailure (validateClient texts data part)
  Tx.demand (Record.ofDoc? d) (.escaped "TypeError")

/-- The group in a client, in its normal form. -/
def normalizeGroup (texts : Texts) (client : Record) :
    Except Failure (Record × Option String) :=
  if client.doc.truthyAt "group" = true then do
    let group ← groupName texts (client.doc.getD "group" (.atom .null))
    return (client.set "group" (.str group), some group)
  else .ok (client, none)

/-- {lit}`INSERT OR IGNORE INTO client_groups`. -/
def Panel.addGroup (owner : String) (group : Option String) (s : Panel) : Panel :=
  match group with
  | none => s
  | some group =>
      if (owner, group) ∈ s.groups then s else { s with groups := s.groups ++ [(owner, group)] }

/-- The group of a client is stored, if it has one. -/
def storeGroup (owner : String) (group : Option String) : Call Unit :=
  Tx.when (group ≠ none) (commit (Tx.write (Panel.addGroup owner group)))

/-! ## Representatives -/

/-- Arguments of {lit}`owner_put`; {lit}`uuid` is the random part of an event id. -/
structure OwnerPut where
  name : String
  allowed : List ℤ
  volumeCreditBytes : Value
  unlimitedCredit : Value
  maxClients : Value
  manual : Value
  quotaBytes : Value
  pref : String
  maxClientIps : Value
  maxClientHwid : Value
  uuid : String

/-- Managed clients of an owner that are not deleted. -/
def Panel.clientsOf (s : Panel) (owner : String) : List (String × ManagedRow × Client) :=
  s.metas.filterMap fun m =>
    ((s.policy.clients.get? m.1).filter fun u => u.owner = owner).map fun u => (m.1, m.2, u)

/-- A text starts with another one. -/
def startsWith (text pref : String) : Bool :=
  pref.toList.isPrefixOf text.toList

/-- The characters of a prefix. -/
def prefixRe (pref : String) : Bool :=
  1 ≤ pref.length && pref.toList.all nameChar

/-- The device limit of a client as {lit}`owner_put` reads it. -/
def hwidLimitOf (texts : Texts) (desired : Record) : ℤ :=
  match intOr0 texts desired.doc "limitHwid" with
  | .ok n => n
  | .error _ => 0

/-- A new restriction does not strand the clients that the owner has. -/
def checkRestriction (texts : Texts) (owner : String) (allowed : List ℤ) (pref : String)
    (ips hwid : ℤ) : Call Unit := do
  let rows ← Tx.read fun s => s.clientsOf owner
  demand (∀ r ∈ rows, r.2.1.inbounds ⊆ allowed)
    "Detach or transfer affected clients before removing their inbound access"
  demand (ips = 0 ∨ ∀ r ∈ rows, ¬(r.2.2.limitIp = 0 ∧ r.2.2.quotaBytes = 0) ∧ r.2.2.limitIp ≤ ips)
    "Reduce existing client IP limits for unlimited-service clients before lowering the reseller max-client-IP policy"
  demand (hwid = 0 ∨ ∀ r ∈ rows, hwidLimitOf texts r.2.1.desired ≠ 0 ∧
      hwidLimitOf texts r.2.1.desired ≤ hwid)
    "Reduce existing client HWID limits before lowering the reseller max-client-HWID policy"
  demand (pref = "" ∨ ∀ r ∈ rows, startsWith (texts.lower r.1) pref = true)
    "Existing client identities must match the reseller prefix before enabling it"

/-- The writes of {lit}`owner_put`. -/
def storeProfile (env : Setting) (actor : Actor) (owner : String) (a : OwnerPut) (p : Profile) :
    Call Unit := do
  commit (onPolicy (registerOwner actor owner a.volumeCreditBytes a.unlimitedCredit a.maxClients
    a.manual a.quotaBytes a.uuid))
  commit (Tx.write fun s => { s with profiles := s.profiles.upsert owner p fun _ => p })
  audit actor.id owner "owner.update" owner "resource credits and representative policy updated"
  tick env true

/-- {lit}`Manager.owner_put`. -/
def ownerPut (env : Setting) (actor : Actor) (owner : String) (a : OwnerPut) : Call Unit := do
  Tx.require (actor.role = .owner) (.failure .permissionDenied)
  demand (nameRe owner = true ∧ 1 ≤ a.name.length ∧ a.name.length ≤ 128) "Invalid owner identity"
  demand (a.allowed.length ≤ 4096 ∧ ∀ i ∈ a.allowed, 1 ≤ i) "Invalid inbound assignments"
  let pref := env.texts.lower (env.texts.strip a.pref)
  demand (pref.length ≤ 64 ∧ (pref = "" ∨ prefixRe pref = true)) "Invalid reseller client prefix"
  let ips ← ofFailure (integer a.maxClientIps 0 1000)
  let hwid ← ofFailure (integer a.maxClientHwid 0 1000)
  let known ← Tx.read fun s => s.inbounds.map Prod.fst
  demand (a.allowed ⊆ known) "Assigned inbound does not exist"
  checkRestriction env.texts owner a.allowed pref ips hwid
  storeProfile env actor owner a ⟨a.name, sortedSet a.allowed, pref, ips, hwid⟩

/-! ## New clients -/

/-- Identities that are taken: in the core, and in the tables of the panel. -/
structure Reservations where
  existing : List String
  reserved : List String

/-- {lit}`Manager._creation_sets_locked`. -/
def creationSets (env : Setting) : Call Reservations := do
  let rows ← engineClients
  let s ← Tx.read id
  return ⟨rows.rows.map fun r => env.texts.lower r.1,
    (s.managed.rows.map fun r => env.texts.lower r.1) ++
      s.policy.clients.rows.map fun r => env.texts.lower r.1⟩

/-- Assign a field that is missing or empty. -/
def fillIn (client : Record) (key value : String) : Record :=
  if client.doc.truthyAt key = true then client else client.set key (.str value)

/-- Assign a field that is missing. -/
def setDefault (client : Record) (field : String × Doc) : Record :=
  if (client.doc.get? field.1).isSome = true then client else client.set field.1 field.2

/-- The defaults of a new client. -/
def clientDefaults : List (String × Doc) :=
  [("flow", .str ""), ("security", .str "auto"), ("limitIp", .int 1), ("limitHwid", .int 0),
    ("totalGB", .int 0), ("expiryTime", .int 0), ("enable", .bool true), ("tgId", .int 0),
    ("group", .str ""), ("comment", .str ""), ("reset", .int 0), ("resetTraffic", .str "never"),
    ("resetTrafficDay", .int 0), ("resetCount", .int 0)]

/-- The credentials of a new client; the one that subscriptions use is always drawn. -/
def withCredentials (email : String) (random : ℕ → String) (n : ℕ) (data : Record) : Record :=
  let client := fillIn (data.set "email" (.str email)) "id" (random n)
  let client := fillIn (fillIn client "password" (random (n + 1))) "auth" (random (n + 2))
  client.set "subId" (.str (random (n + 3)))

/-- Draw the credentials of a new client. -/
def drawCredentials (env : Setting) (email : String) (data : Record) : Call Record := do
  let n ← Tx.read Panel.tokens
  Tx.write fun s => { s with tokens := s.tokens + 4 }
  return withCredentials email env.texts.random n data

/-- {lit}`max(0, expiryTime // 1000)`. -/
def expirySeconds (d : Doc) : ℤ :=
  max 0 (limitOf d "expiryTime" / 1000)

/-- {lit}`Store.register_client` with the metering columns. -/
def registerPolicy (actor : Actor) (email owner : String) (limitIp quotaBytes expiresAt : ℤ)
    (duration : Value) (now : ℤ) : Call Unit := do
  let _ ← onPolicy (registerClient actor email owner (.int limitIp) (.int quotaBytes) (.int 0) .none
    (.int expiresAt) duration now)
  Tx.write fun s => { s with accounts := { s.accounts with
    clients := s.accounts.clients.upsert email ⟨owner, 0⟩ fun _ => ⟨owner, 0⟩ } }

/-- {lit}`INSERT INTO managed_clients`. -/
def insertManaged (email : String) (row : ManagedRow) (meter : ManagedMeter) : Call Unit := do
  let old ← Tx.read fun s => s.managed.get? email
  Tx.require (old.isNone = true) (.failure .integrityError)
  Tx.write fun s => { s with
    managed := s.managed.insert email row
    accounts := { s.accounts with
      managed := s.accounts.managed.upsert email meter fun _ => meter } }

/-- The row of a client that is being created. -/
def ManagedRow.created (desired : Record) (ids : List ℤ) : ManagedRow where
  desired := desired
  inbounds := ids
  op := .upsert
  opId := none
  state := .pending
  error := ""
  expectedEnable := none
  externalDisabled := false
  retryAt := 0
  attempts := 0

/-- The transaction that stores a new client. -/
def storeCreated (env : Setting) (actor : Actor) (email owner : String) (client : Record)
    (ids : List ℤ) (duration : Value) : Call Unit :=
  commit do
    registerPolicy actor email owner (limitOf client.doc "limitIp") (limitOf client.doc "totalGB")
      (expirySeconds client.doc) duration ⌊env.now⌋
    onPolicy (editClient system email
      ⟨.none, .none, .bool !(client.doc.truthyAt "enable"), .none⟩ ⌊env.now⌋)
    insertManaged email (.created client ids) ⟨0, 0, false, 0⟩

/-- The identity of a payload, in lower case. -/
def identityOf (texts : Texts) (data : Record) : Call String := do
  let email ← Tx.demand ((data.doc.get? "email").bind Doc.str?) (.escaped "AttributeError")
  return texts.lower email

/-- {lit}`Manager._stage_create_locked` from the check of the transport on. -/
def stageChecked (env : Setting) (actor : Actor) (owner email : String) (data : Record)
    (ids : List ℤ) (taken : Reservations) (p : Call Profile) (duration : Value) :
    Call Unit := do
  validateClientTransport data.doc ids
  demand (email ∉ taken.existing)
    "Client already exists in engine; adopt explicitly instead of overwriting"
  demand (email ∉ taken.reserved)
    "Identity is already reserved (including historical tombstones)"
  let p ← p
  let pref := env.texts.lower p.pref
  demand (pref = "" ∨ startsWith email pref = true)
    ("Client identity must start with reseller prefix: " ++ pref)
  let client ← drawCredentials env email data
  let x ← ofFailure (normalizeGroup env.texts client)
  storeGroup owner x.2
  let client := clientDefaults.foldl setDefault x.1
  checkCaps env.texts "Requested IP limit exceeds the reseller policy"
    "Requested HWID limit exceeds the reseller policy" p client.doc
  Tx.handle (storeCreated env actor email owner client ids duration) fun h =>
    if h.isIntegrityError then some (Tx.raise (policyError "Identity is already reserved"))
    else none
  audit actor.id owner "client.create" email "CoreEngine synchronization requested"

/-- The right to create clients, and the permission to write. -/
def requireCreate (actor : Actor) (owner : String) : Call Unit := do
  requireRight actor "create" owner
  let writes ← Tx.read Panel.writesEnabled
  demand (writes = true) "CoreEngine writes are disabled"

/-- {lit}`Manager.create`. -/
def create (env : Setting) (actor : Actor) (owner : String) (client : Doc) (ids : List ℤ)
    (duration : Value) : Call Unit := do
  let data ← validated env.texts client false
  let taken ← creationSets env
  requireCreate actor owner
  let email ← identityOf env.texts data
  checkInbounds owner ids
  stageChecked env actor owner email data ids taken (profileOf owner) duration
  tick env true

/-- {lit}`Manager._stage_create_locked` for one payload of a batch. -/
def stageInBatch (env : Setting) (actor : Actor) (owner : String) (p : Profile) (ids : List ℤ)
    (taken : Reservations) (raw : Doc) : Call String := do
  requireCreate actor owner
  let data ← validated env.texts raw false
  let email ← identityOf env.texts data
  stageChecked env actor owner email data ids taken (pure p) .none
  return email

/-- The identities of the clients that were staged, and those that are taken. -/
structure Staging where
  staged : List String
  taken : Reservations

/-- The identities after one more client was staged. -/
def Staging.add (x : Staging) (email : String) : Staging :=
  ⟨x.staged ++ [email], ⟨email :: x.taken.existing, email :: x.taken.reserved⟩⟩

/-- One payload of a batch: a failure is reported and skips it. -/
def stageOne (env : Setting) (actor : Actor) (owner : String) (p : Profile) (ids : List ℤ)
    (x : Staging) (raw : Doc) : Call Staging :=
  Tx.handle (do let email ← stageInBatch env actor owner p ids x.taken raw; return x.add email)
    fun h => if h.caught || h.isIntegrityError then some (pure x) else none

/-- The item of a batch for a new client. -/
def createdItem (env : Setting) (email : String) : Call (Doc × Bool) := do
  let row ← Tx.read fun s => s.managed.get? email
  let row ← Tx.demand row
    (policyError "Managed metadata missing during bulk create reconciliation")
  let enabled ← Tx.read fun s => s.enabled env.now email row
  return (batchItem email (wantedClient row enabled) row.inbounds, enabled)

/-- The rows of new clients that the core has taken over. -/
def settleCreated (emails : List String) (items : List (Doc × Bool)) : Call Unit :=
  commit ((emails.zip items).forM fun x => do
    setManaged x.1 (ManagedRow.takenOver x.2.2)
    Tx.write fun s => { s with accounts := { s.accounts with
      managed := s.accounts.managed.update x.1 fun _ => ⟨0, 0, true, 1⟩ } })

/-- {lit}`Manager._reconcile_created_batch_locked`. -/
def reconcileCreated (env : Setting) (emails : List String) : Call Unit :=
  Tx.handle (do
      let items ← emails.mapM (createdItem env)
      scheduleCycles env fun email => decide (email ∈ emails)
      engineUpsertMany (items.map Prod.fst)
      settleCreated emails items
      engineFlush)
    fun h => if h.isException then some (tick env true) else none

/-- What a batch of creations checks once for all of its payloads. -/
def batchPreflight (env : Setting) (actor : Actor) (owner : String) (ids : List ℤ) :
    Call (Option (Profile × Reservations)) :=
  Tx.handle (do
      requireRight actor "create" owner
      checkInbounds owner ids
      let p ← profileOf owner
      let taken ← creationSets env
      return some (p, taken))
    fun h => if h.caught then some (pure none) else none

/-- {lit}`Manager.create_batch`. -/
def createBatch (env : Setting) (actor : Actor) (owner : String) (clients : List Doc)
    (ids : List ℤ) : Call Unit := do
  demand (1 ≤ clients.length ∧ clients.length ≤ 500) "Bulk create requires 1..500 clients"
  match ← batchPreflight env actor owner ids with
  | none => return ()
  | some x => do
      let done ← clients.foldlM (stageOne env actor owner x.1 ids) ⟨[], x.2⟩
      Tx.when (done.staged ≠ []) (reconcileCreated env done.staged)

/-- The row of a client that is taken over from the core. -/
def ManagedRow.adopted (desired : Record) (ids : List ℤ) : ManagedRow where
  desired := desired
  inbounds := ids
  op := .none
  opId := none
  state := .applied
  error := ""
  expectedEnable := some ((desired.doc.getD "enable" (.bool true)).truthy)
  externalDisabled := false
  retryAt := 0
  attempts := 0

/-- The policy row of a client that is taken over. -/
def adoptedPolicy (client : Record) (expiresAt : ℤ) (u : Client) : Client :=
  { u with manual := !(client.doc.getD "enable" (.bool true)).truthy, expiresAt := expiresAt }

/-- The writes that take a client over from the core. -/
def writeAdopted (env : Setting) (actor : Actor) (email owner : String) (client : Record)
    (ids : List ℤ) (up down : ℤ) : Call Unit := do
  let limitIp ← Tx.ofExcept (intAt env.texts client.doc "limitIp")
  let quota ← Tx.ofExcept (intAt env.texts client.doc "totalGB")
  let expiry ← Tx.ofExcept (intAt env.texts client.doc "expiryTime")
  let expiresAt := max 0 (expiry / 1000)
  registerPolicy actor email owner limitIp quota expiresAt .none ⌊env.now⌋
  Tx.require (up + down ≤ maxInt) (.escaped "OverflowError")
  Tx.write fun s => { s with
    policy := { s.policy with
      clients := s.policy.clients.update email (adoptedPolicy client expiresAt) }
    accounts := { s.accounts with
      clients := s.accounts.clients.update email fun c => { c with usedBytes := up + down } } }
  insertManaged email (.adopted client ids) ⟨up, down, true, 0⟩

/-- The transaction that takes a client over from the core. -/
def storeAdopted (env : Setting) (actor : Actor) (email owner : String) (client : Record)
    (ids : List ℤ) (up down : ℤ) : Call Unit :=
  commit (writeAdopted env actor email owner client ids up down)

/-- {lit}`Manager.adopt` with the record of the core. -/
def adoptFound (env : Setting) (actor : Actor) (owner email : String) (found : ClientRow) :
    Call Unit := do
  checkInbounds owner found.inbounds
  let client := (writable found.body).set "email" (.str email)
  let rows ← engineClients
  let record ← Tx.demand (rows.get? email) (policyError "CoreEngine client disappeared")
  let c ← ofFailure (counters (some (trafficOf record)))
  storeAdopted env actor email owner client found.inbounds c.1 c.2
  audit actor.id owner "client.adopt" email
    "Historical engine bytes are a baseline; resource credit is reserved from the configured client plan"
  tick env true

/-- {lit}`Manager.adopt`. -/
def adopt (env : Setting) (actor : Actor) (owner email : String) : Call Unit := do
  Tx.require (actor.role = .owner) (.failure .permissionDenied)
  let found ← clientDetail email
  adoptFound env actor owner email found

/-! ## Edits -/

/-- A record of the client is metered before the client is changed. -/
def chargeExisting (env : Setting) (email : String) (row : ManagedRow)
    (existing : Option ClientRow) : Call Unit :=
  match existing with
  | none => return ()
  | some record => do
      checkIdentity record row
        "Identity conflict: engine subId changed; explicit re-adoption is required"
      charge env email record

/-- {lit}`Manager._reconcile_client_locked`. -/
def reconcileClient (env : Setting) (email : String) : Call Unit :=
  Tx.handle (do
      let row ← metaOf email
      let existing ← clientSnapshot email
      chargeExisting env email row existing
      let enabled ← Tx.read fun s => s.enabled env.now email row
      scheduleCycles env fun e => decide (e = email)
      engineUpsertMany [batchItem email (wantedClient row enabled) row.inbounds]
      commit (setManaged email (ManagedRow.takenOver enabled))
      engineFlush)
    fun h => if h.isException then some (tick env true) else none

/-- The client that an edit starts from: what the core shows, unless an edit waits. -/
def desiredBase (email : String) (row : ManagedRow) : Call Record :=
  if row.op = .none then do
    let found ← clientDetail email
    return writable found.body
  else return row.desired

/-- The client that an edit makes, and its group. -/
def mergeEdit (env : Setting) (owner email : String) (base patch : Record) (ids : List ℤ) :
    Call (Record × Option String) := do
  checkInbounds owner ids
  let desired := (base.update patch).set "email" (.str email)
  validateClientTransport desired.doc ids
  ofFailure (normalizeGroup env.texts desired)

/-- The limits of a representative, for an edit. -/
def checkEditCaps (env : Setting) (owner : String) (desired : Record) : Call Unit := do
  let p ← profileOf owner
  checkCaps env.texts "IP cap exceeds reseller policy" "HWID cap exceeds reseller policy" p
    desired.doc

/-- A patch leaves the identity alone. -/
def checkPatch (patch : Record) : Call Unit :=
  demand ((patch.doc.get? "email").isNone = true ∧ (patch.doc.get? "subId").isNone = true)
    "Identity/subId changes use a separate rotation workflow"

/-- The columns of {lit}`clients` that a patch changes. -/
def changesOf (patch : Doc) : List (String × Value) :=
  ((patch.get? "limitIp").elim [] fun v => [("limit_ip", valueOf v)]) ++
  ((patch.get? "totalGB").elim [] fun v => [("quota_bytes", valueOf v)]) ++
  ((patch.get? "expiryTime").elim [] fun _ => [("expires_at", .int (expirySeconds patch))]) ++
  ((patch.get? "enable").elim [] fun v => [("manual", .bool !v.truthy)])

/-- The changes as arguments of {lit}`edit_client`. -/
def clientEdit (changes : List (String × Value)) : ClientEdit where
  limitIp := requestedField changes "limit_ip"
  quotaBytes := requestedField changes "quota_bytes"
  manual := requestedField changes "manual"
  expiresAt := requestedField changes "expires_at"

/-- The row of a client whose edit waits. -/
def ManagedRow.staged (desired : Record) (ids : List ℤ) (enables : Bool) (row : ManagedRow) :
    ManagedRow :=
  { row with
    desired := desired, inbounds := ids, op := .upsert, state := .pending, error := ""
    retryAt := 0, attempts := 0
    externalDisabled := if enables then false else row.externalDisabled }

/-- The keys of a patch. -/
def patchKeys (patch : Record) : String :=
  joinSorted ((patch.doc.dict?.getD []).map Prod.fst)

/-- The transaction that stores an edit. -/
def storeEdit (env : Setting) (email : String) (patch desired : Record) (ids : List ℤ) :
    Call Unit :=
  commit do
    Tx.when (changesOf patch.doc ≠ []) (onPolicy
      (editClient system email (clientEdit (changesOf patch.doc)) ⌊env.now⌋))
    setManaged email (ManagedRow.staged desired ids (patch.doc.get? "enable").isSome)

/-- {lit}`Manager.update`. -/
def update (env : Setting) (actor : Actor) (email : String) (patch : Doc) (ids : Option (List ℤ))
    (reconcile : Bool) : Call Unit := do
  let patch ← validated env.texts patch true
  checkPatch patch
  let u ← ownRow actor email "edit"
  let row ← Tx.read fun s => s.managed.get? email
  let row ← Tx.demand row (.escaped "TypeError")
  demand (row.state ≠ .uncertain) "Resolve the uncertain engine operation before editing"
  let base ← desiredBase email row
  let ids := ids.getD row.inbounds
  let x ← mergeEdit env u.owner email base patch ids
  storeGroup u.owner x.2
  checkEditCaps env u.owner x.1
  storeEdit env email patch x.1 ids
  audit actor.id u.owner "client.update" email (patchKeys patch)
  Tx.when (reconcile = true) (reconcileClient env email)

/-- An edit of a batch that passed its checks. -/
structure EditPlan where
  email : String
  owner : String
  desired : Record
  ids : List ℤ
  group : Option String
  patch : Record

/-- The inbounds that an item of a batch names; {lit}`none` if it names none. -/
def idsOf (raw : Doc) : Except Halt (Option (List ℤ)) :=
  match raw.get? "inboundIds" with
  | none => .ok none
  | some (.atom .null) => .ok none
  | some (.list items) =>
      ((items.mapM Doc.int?).elim (.error (policyError "Select 1..256 valid inbound IDs"))
        fun ids => .ok (some ids))
  | some (.atom (.int n)) =>
      if n = 0 then .error (policyError "Select 1..256 valid inbound IDs")
      else .error (.escaped "TypeError")
  | some (.atom (.bool b)) =>
      if b then .error (.escaped "TypeError")
      else .error (policyError "Select 1..256 valid inbound IDs")
  | some _ => .error (policyError "Select 1..256 valid inbound IDs")

/-- The checks of {lit}`update_batch` on one item; {lit}`attach` asks for one more right. -/
def planEdit (env : Setting) (actor : Actor) (attach : Bool) (raw : Doc) : Call EditPlan := do
  demand (raw.isDict = true) "Invalid bulk update item"
  let email := env.texts.lower (emailText raw)
  let given := if raw.truthyAt "patch" = true then raw.getD "patch" (.dict []) else .dict []
  let patch ← validated env.texts given true
  checkPatch patch
  let u ← ownRow actor email "edit"
  Tx.when (attach = true) (requireRight actor "attach" u.owner)
  let row ← metaOf email
  demand (row.state ≠ .uncertain) "Resolve the uncertain engine operation before editing"
  let base ← desiredBase email row
  let given ← Tx.ofExcept (idsOf raw)
  let ids := given.getD row.inbounds
  let x ← mergeEdit env u.owner email base patch ids
  checkEditCaps env u.owner x.1
  return ⟨email, u.owner, x.1, ids, x.2, patch⟩

/-- Plan an item; one that fails is reported and left out. -/
def planItem (env : Setting) (actor : Actor) (attach : Bool) (plans : List EditPlan) (raw : Doc) :
    Call (List EditPlan) :=
  Tx.handle (do let plan ← planEdit env actor attach raw; return plans ++ [plan]) fun h =>
    if h.caughtInBatch then some (pure plans) else none

/-- The policy edits of some plans. -/
def policyEdits (env : Setting) (plans : List EditPlan) : List BulkEdit :=
  (plans.filter fun p => changesOf p.patch.doc ≠ []).map fun p =>
    ⟨.str p.email, some (changesOf p.patch.doc), ⌊env.now⌋⟩

/-- Carry out the policy edits of some plans; the result tells which of them failed. -/
def editPlans (env : Setting) (plans : List EditPlan) : Call (Table Value String) :=
  if (policyEdits env plans).isEmpty then return .empty
  else onPolicy (editClientsMany system (policyEdits env plans))

/-- The transaction of {lit}`update_batch`: which plans it has staged. -/
def storePlans (env : Setting) (actor : Actor) (plans : List EditPlan) :
    Call (List EditPlan) :=
  commit do
    let errors ← editPlans env plans
    let staged := plans.filter fun p => (errors.get? (.str p.email)).isNone
    staged.forM fun p => Tx.write (Panel.addGroup p.owner p.group)
    staged.forM fun p => setManaged p.email
      (ManagedRow.staged p.desired p.ids (p.patch.doc.get? "enable").isSome)
    Tx.write fun s => { s with accounts := { s.accounts with
      audit := s.accounts.audit ++ staged.map fun p =>
        ⟨actor.id, p.owner, "client.update", p.email, ((patchKeys p.patch).take 500).toString⟩ } }
    return staged

/-- {lit}`Manager.update_batch`. -/
def updateBatch (env : Setting) (actor : Actor) (items : List Doc) (attach : Bool) :
    Call Unit := do
  demand (1 ≤ items.length ∧ items.length ≤ 500) "Bulk update requires 1..500 clients"
  let plans ← items.foldlM (planItem env actor attach) []
  let staged ← storePlans env actor plans
  Tx.when (staged.isEmpty = false) (tick env true)

/-! ## Destructive operations and recovery -/

/-- The destructive actions. -/
inductive Destruction where
  | reset
  | delete
deriving DecidableEq, Repr

/-- The operation that an action requests. -/
def Destruction.op : Destruction → PendingOp
  | .reset => .reset
  | .delete => .delete

/-- The name of an action. -/
def Destruction.name : Destruction → String
  | .reset => "reset"
  | .delete => "delete"

/-- The row of a client that waits for a destructive action. -/
def ManagedRow.requested (kind : Destruction) (opId : ℕ) (row : ManagedRow) : ManagedRow :=
  { row with op := kind.op, opId := some opId, state := .pending, error := "", retryAt := 0,
             attempts := 0 }

/-- Request a destructive action. -/
def requestDestruction (email : String) (kind : Destruction) : Call Unit :=
  commit do
    let row ← Tx.read fun s => s.managed.get? email
    let row ← Tx.demand row (.escaped "TypeError")
    demand (row.state ≠ .uncertain) "Resolve the uncertain operation first"
    let opId ← token
    setManaged email (ManagedRow.requested kind opId)

/-- {lit}`Manager.action` for a reset or a deletion. -/
def destroy (env : Setting) (actor : Actor) (email : String) (kind : Destruction) :
    Call Unit := do
  let u ← ownRow actor email kind.name
  tick env false
  requestDestruction email kind
  audit actor.id u.owner ("client." ++ kind.name) email ""
  tick env true

/-- The text of an operation. -/
def opText : PendingOp → String
  | .delete => "delete"
  | .reset => "reset"
  | .upsert => "upsert"
  | .none => "none"

/-- The text of a state. -/
def stateText : ManagedState → String
  | .applied => "applied"
  | .pending => "pending"
  | .resetInflight => "reset_inflight"
  | .uncertain => "uncertain"
  | .conflict => "conflict"
  | .error => "error"
  | .missing => "missing"
  | .deleted => "deleted"

/-- The right that the retry of an operation takes. -/
def retryAction : PendingOp → String
  | .delete => "delete"
  | .reset => "reset"
  | .upsert => "edit"
  | .none => "edit"

/-- The account that the retry of an operation is noted for. -/
def retryOwner (actor : Actor) (email : String) (op : PendingOp) : Call String := do
  match ← Tx.read fun s => s.policy.clients.get? email with
  | some u => do
      requireRight actor (retryAction op) u.owner
      return u.owner
  | none => do
      Tx.require (actor.role = .owner) (.failure .permissionDenied)
      return actor.id

/-- The row of a client whose operation is tried again. -/
def ManagedRow.retried (row : ManagedRow) : ManagedRow :=
  { row with state := .pending, error := "", retryAt := 0 }

/-- {lit}`Manager.retry_operation`. -/
def retryOperation (env : Setting) (actor : Actor) (email : String) : Call Unit := do
  let row ← metaOf email
  let owner ← retryOwner actor email row.op
  demand (row.op ≠ .none ∧ (row.state = .pending ∨ row.state = .error))
    "Only pending/error durable operations can be retried"
  commit (setManaged email ManagedRow.retried)
  audit actor.id owner "sync.retry_now" email
    ("operation=" ++ opText row.op ++ "; previous_state=" ++ stateText row.state)
  tick env true

/-- The row of a client that waits for being created again. -/
def ManagedRow.restored (opId : ℕ) (row : ManagedRow) : ManagedRow :=
  { row with op := .upsert, opId := some opId, state := .pending, error := "", retryAt := 0,
             attempts := 0 }

/-- Request that a client be created again. -/
def requestRestore (email : String) : Call Unit :=
  commit do
    let opId ← token
    setManaged email (ManagedRow.restored opId)

/-- {lit}`Manager.restore_missing`. -/
def restoreMissing (env : Setting) (actor : Actor) (email confirmation : String) :
    Call Unit := do
  Tx.require (actor.role = .owner ∧ confirmation = email) (.failure .permissionDenied)
  let u ← ownRow actor email "edit"
  let row ← metaOf email
  demand (row.state = .missing ∧ row.op = .none)
    "Only a missing idle managed client can be explicitly restored"
  let records ← engineClients
  demand ((records.get? email).isNone = true)
    "CoreEngine already contains this identity; reconcile before restore"
  demand (row.desired.doc.truthyAt "subId" = true)
    "Managed identity metadata is incomplete; automatic restore refused"
  requestRestore email
  audit actor.id u.owner "sync.restore_missing" email
    "Explicit owner recovery requested; existing DARK identity retained"
  tick env true

/-- {lit}`Manager.resolve_reset`. -/
def resolveReset (env : Setting) (actor : Actor) (email confirmation : String) : Call Unit := do
  Tx.require (actor.role = .owner ∧ confirmation = email) (.failure .permissionDenied)
  let row ← metaOf email
  demand (row.state = .uncertain ∧ row.op = .reset) "There is no uncertain reset to resolve"
  let records ← engineClients
  let record ← Tx.demand ((records.get? email).filter fun r => sameSubId r.body row.desired)
    (policyError "CoreEngine client identity must match before recovery")
  Tx.when (row.opId ≠ none) remoteReset
  charge env email record
  commit (setManaged email ManagedRow.applied)
  completeCycle env email
  let u ← ownRow actor email "read"
  audit actor.id u.owner "reset.resolve_current" email
    "Current engine counters accepted; destructive reset NOT replayed; due reset cycle advanced"
  tick env false

/-- The row after a restart: a reset that was under way has an unknown outcome. -/
def ManagedRow.recovered (row : ManagedRow) : ManagedRow :=
  if row.state = .resetInflight then
    { row with
      state := .uncertain
      error := "Service restarted during a engine reset; automatic retry refused" }
  else row

/-- {lit}`Manager.recover_resets`. -/
def recoverResets : Call Unit :=
  commit (Tx.write fun s => { s with managed := s.managed.mapRows fun _ => ManagedRow.recovered })

/-! ## Commands -/

/-- The commands of the manager; {lit}`start` is what a restart of the process does first. -/
inductive Command where
  | ownerPut (actor : Actor) (owner : String) (a : OwnerPut)
  | create (actor : Actor) (owner : String) (client : Doc) (ids : List ℤ) (duration : Value)
  | createBatch (actor : Actor) (owner : String) (clients : List Doc) (ids : List ℤ)
  | adopt (actor : Actor) (owner email : String)
  | update (actor : Actor) (email : String) (patch : Doc) (ids : Option (List ℤ))
      (reconcile : Bool)
  | updateBatch (actor : Actor) (items : List Doc) (attach : Bool)
  | destroy (actor : Actor) (email : String) (kind : Destruction)
  | tick (suppress : Bool)
  | retryOperation (actor : Actor) (email : String)
  | restoreMissing (actor : Actor) (email confirmation : String)
  | resolveReset (actor : Actor) (email confirmation : String)
  | start

/-- Run a command. -/
def Command.run (env : Setting) : Command → Call Unit
  | .ownerPut actor owner a => Management.ownerPut env actor owner a
  | .create actor owner client ids duration => Management.create env actor owner client ids duration
  | .createBatch actor owner clients ids => Management.createBatch env actor owner clients ids
  | .adopt actor owner email => Management.adopt env actor owner email
  | .update actor email patch ids reconcile => Management.update env actor email patch ids reconcile
  | .updateBatch actor items attach => Management.updateBatch env actor items attach
  | .destroy actor email kind => Management.destroy env actor email kind
  | .tick suppress => Management.tick env suppress
  | .retryOperation actor email => Management.retryOperation env actor email
  | .restoreMissing actor email confirmation =>
      Management.restoreMissing env actor email confirmation
  | .resolveReset actor email confirmation => Management.resolveReset env actor email confirmation
  | .start => recoverResets

end Management
end DarkXray
