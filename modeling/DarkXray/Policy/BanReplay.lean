import Mathlib.Algebra.Order.Floor.Ring
import Mathlib.Algebra.Order.Archimedean.Basic
import Mathlib.Data.List.Infix
import DarkXray.Policy.Broker
import DarkXray.Policy.Guard

/-!
# Bans and their replay

The panel keeps the bans of the guard in its database, and has the firewall broker put them into
force.  The sets of the broker do not survive its restart, so the panel replays the bans that
have not ended whenever it synchronizes the guard.

A panel and a broker are modelled together.  The broker is reachable: its commands succeed, and
its answers arrive.

Main results:

- Theorem {lit}`jails_normal`: the groups of a policy are lists of ports that the broker takes as
  they are.
- Theorem {lit}`wp_judge_bans`: the transaction of an observation leaves the bans, and finds no
  violation by an address that is banned.
-/

namespace DarkXray

namespace Library
namespace Tx

variable {σ ε ε' α : Type}

/-- Run a procedure, and return the exception if it raises. -/
def attempt (m : Tx σ ε α) : Tx σ ε' (Except ε α) :=
  fun s => (.ok (m s).1, (m s).2)

@[simp]
theorem wp_attempt {m : Tx σ ε α} {q : Except ε α → σ → Prop} {r : ε' → σ → Prop} {s : σ} :
    wp (attempt m) q r s ↔ wp m (fun a t => q (.ok a) t) (fun e t => q (.error e) t) s := by
  unfold wp attempt
  rcases m s with ⟨_ | a, t⟩
  · exact Iff.rfl
  · exact Iff.rfl

/-- What holds of the outcome of a procedure and the store that it leaves. -/
theorem outcome_of_wp {m : Tx σ ε α} {q : Except ε α → σ → Prop} {s : σ}
    (h : wp m (fun a t => q (.ok a) t) (fun e t => q (.error e) t) s) : q (m s).1 (m s).2 := by
  revert h
  unfold wp
  rcases m s with ⟨_ | a, t⟩
  · exact id
  · exact id

/-- What holds of the store that a procedure leaves, however it ends. -/
theorem state_of_wp {m : Tx σ ε α} {P : σ → Prop} {s : σ}
    (h : wp m (fun _ t => P t) (fun _ t => P t) s) : P (m s).2 :=
  outcome_of_wp (q := fun _ t => P t) h

end Tx
end Library

namespace Policy

open Library

/-! ## The policy of the panel -/

/-- {lit}`ClientPolicy`. -/
structure PanelClient where
  owner : String
  limitIp : ℕ
  ports : List ℤ
deriving DecidableEq

/-- {lit}`Policy`, as {lit}`from_dict` accepts it; {lit}`direct` says that the sources are direct
and verified. -/
structure PanelPolicy where
  enforce : Bool
  direct : Bool
  windowSeconds : ℤ
  banSeconds : ℤ
  exemption : String → Option String
  clients : List (String × PanelClient)
  ports_normal : ∀ c ∈ clients, normalizePorts (portsArg c.2.ports) = .ok c.2.ports
  ports_ne_nil : ∀ c ∈ clients, c.2.ports ≠ []
  ban_least : 10 ≤ banSeconds

variable (jailFor : List ℤ → String)

/-- The groups of ports of the clients with a limit, the last one first. -/
def PanelPolicy.groups (p : PanelPolicy) : List (String × List ℤ) :=
  ((p.clients.filter fun c => c.2.limitIp ≠ 0).map fun c =>
    (jailFor c.2.ports, c.2.ports)).reverse

/-- {lit}`BrokerExecutor.jails`. -/
def PanelPolicy.jails (p : PanelPolicy) (jail : String) : Option (List ℤ) :=
  (p.groups jailFor).lookup jail

/-- The ports that the executor needs. -/
def PanelPolicy.requested (p : PanelPolicy) : List ℤ :=
  ((p.groups jailFor).map Prod.fst).flatMap fun jail => (p.jails jailFor jail).getD []

variable {α : Type} (lib : IpLibrary α)

/-- What the guard uses of the policy. -/
def PanelPolicy.guard (p : PanelPolicy) : GuardPolicy where
  normalizeIp := fun raw => (normalizeIp lib (.value (.str raw))).toOption
  exemption := p.exemption
  direct := p.direct
  windowSeconds := p.windowSeconds
  banSeconds := p.banSeconds
  clients := fun email => (p.clients.lookup email).map fun c =>
    ⟨c.owner, c.limitIp, jailFor c.ports⟩

/-! ## The executor -/

/-- What surrounds a message to a broker that is reachable. -/
structure Reachable extends Environment where
  completed : ∀ command, result command = .completed

/-- The text of an exception, without what {lit}`nft` and the system say. -/
def BrokerError.text (e : BrokerError) : String :=
  match e with
  | .policy message => message
  | .refused => "nftables refused operation: "
  | .value => ""
  | .type => "Guard closed without a response"
  | .process => ""

/-- The message {lit}`ban`. -/
def banMessage (ip : String) (ports : List ℤ) (seconds : ℤ) : Fields :=
  [("operation", .value (.str "ban")), ("ip", .value (.str ip)), ("ports", portsArg ports),
    ("seconds", .value (.int seconds))]

/-- The message {lit}`unban`. -/
def unbanMessage (ip : String) : Fields :=
  [("operation", .value (.str "unban")), ("ip", .value (.str ip))]

/-- The message {lit}`status`. -/
def statusMessage : Fields :=
  [("operation", .value (.str "status"))]

variable (cfg : BrokerConfig)

/-- {lit}`request`; the panel runs under the approved uid. -/
def request (env : Reachable) (message : Fields) : BrokerCall BrokerAnswer :=
  dispatch lib cfg env.toEnvironment (some message) cfg.allowedUid

/-- {lit}`BrokerExecutor.ban`. -/
def executorBan (p : PanelPolicy) (env : Reachable) (jail ip : String) (seconds : Option ℤ) :
    BrokerCall Unit := do
  let ports ← Tx.demand (p.jails jailFor jail) (.policy "Unmanaged data-port group")
  let duration := seconds.getD p.banSeconds
  Tx.require (0 < duration) (.policy "Invalid ban duration")
  let ip ← Tx.ofExcept (normalizeIp lib (.value (.str ip)))
  let _ ← request lib cfg env (banMessage ip ports duration)

/-- {lit}`BrokerExecutor.check`. -/
def executorCheck (p : PanelPolicy) (env : Reachable) : BrokerCall Unit := do
  let answer ← request lib cfg env statusMessage
  match answer with
  | .status status => do
      Tx.require (status.directSourceVerified = true)
        (.policy "Root-owned guard configuration has not verified direct packet sources")
      let missing := ((p.requested jailFor).dedup.filter (· ∉ status.allowedPorts)).insertionSort
        (· ≤ ·)
      Tx.require (missing = []) (.policy ("Root approval is missing for data ports: " ++
        String.intercalate "," (missing.map toString)))
      Tx.require (p.banSeconds ≤ status.maxBanSeconds)
        (.policy "Ban duration exceeds the root-owned guard maximum")
  | _ => Tx.raise (.policy
      "Root-owned guard configuration has not verified direct packet sources")

/-! ## The panel -/

/-- The tables of the guard and the broker.  The program does not keep {lit}`cause`: the group
for which an element was put into its set. -/
structure GuardStore where
  db : GuardDb
  firewall : FirewallState
  cause : Element → Option String

/-- The elements that have changed are those of a group. -/
def blame (before after : FirewallState) (jail : String) (cause : Element → Option String)
    (e : Element) : Option String :=
  if after.elements.get? e = before.elements.get? e then cause e else some jail

/-- The executor bans an address for a group. -/
def banFor (p : PanelPolicy) (env : Reachable) (jail ip : String) (seconds : Option ℤ) :
    Tx GuardStore BrokerError Unit :=
  Tx.within GuardStore.firewall
    (fun f s => { s with firewall := f, cause := blame s.firewall f jail s.cause })
    (executorBan jailFor lib cfg p env jail ip seconds)

/-- A call of the broker that puts no element into a set. -/
def onFirewall {β : Type} (m : BrokerCall β) : Tx GuardStore BrokerError β :=
  Tx.within GuardStore.firewall (fun f s => { s with firewall := f }) m

/-- A statement on the tables of the guard. -/
def onDb {ε β : Type} (m : Tx GuardDb ε β) : Tx GuardStore ε β :=
  Tx.within GuardStore.db (fun db s => { s with db := db }) m

/-- A row of {lit}`bans` with its group and address. -/
abbrev Ban : Type :=
  (String × String) × BanRow

/-- The row is in force. -/
def activeBan (now : ℚ) (ban : Ban) : Bool :=
  ban.2.state = "applied" && decide (now < ban.2.expiresAt)

/-- The row is released. -/
def releaseBan (now : ℚ) (row : BanRow) : BanRow :=
  { row with state := "released", expiresAt := now }

/-- A synchronization: when it reads the clock, and what surrounds its messages. -/
structure SyncCall where
  began : ℚ
  check : Reachable
  /-- {lit}`time.time()`, after the check. -/
  now : ℚ
  ban : String × String → Reachable
  last : Reachable
  ended : ℚ
  began_le_check : began ≤ check.began
  check_le_now : check.ended ≤ now
  now_le_ban : ∀ k, now ≤ (ban k).began
  ban_le_ended : ∀ k, (ban k).ended ≤ ended
  now_le_last : now ≤ last.began
  last_le_ended : last.ended ≤ ended

/-- The error text says that the group is not managed. -/
def unmanaged (e : BrokerError) : Bool :=
  decide ("Unmanaged data-port group".toList <:+: e.text.toList)

/-- The seconds that a ban is replayed for. -/
def remainingSeconds (now : ℚ) (ban : Ban) : ℤ :=
  max 1 ⌊ban.2.expiresAt - now⌋

/-- One round of the loop: whether the ban was restored. -/
def replayBan (p : PanelPolicy) (call : SyncCall) (ban : Ban) : Tx GuardStore BrokerError Bool :=
  Tx.handle
    (do
      banFor jailFor lib cfg p (call.ban ban.1) ban.1.1 ban.1.2
        (some (remainingSeconds call.now ban))
      return true)
    fun e =>
      if unmanaged e = true then
        some do
          onDb (Tx.write fun db =>
            { db with bans := db.bans.update ban.1 (releaseBan call.now) })
          return false
      else none

/-- The loop: how many bans were restored. -/
def replayBans (p : PanelPolicy) (call : SyncCall) : List Ban → Tx GuardStore BrokerError ℕ
  | [] => return 0
  | ban :: rest => do
      let restored ← replayBan jailFor lib cfg p call ban
      let n ← replayBans p call rest
      return (if restored then n + 1 else n)

/-- The part of {lit}`sync_ip_guard` that the exceptions are caught of; its record of the boot of
the broker, which nothing reads, is left out. -/
def restoreBans (p : PanelPolicy) (call : SyncCall) : Tx GuardStore BrokerError Unit := do
  Tx.require (p.direct = true) (.policy ("Enforcement requires verified DIRECT packet-source IP " ++
    "on this host; forwarded/tunnel IP is not enough"))
  onFirewall (executorCheck jailFor lib cfg p call.check)
  let active ← Tx.read fun s => s.db.bans.rows.filter (activeBan call.now)
  let restored ← replayBans jailFor lib cfg p call active
  Tx.when (restored ≠ 0) do
    let _ ← onFirewall (request lib cfg call.last statusMessage)

/-- {lit}`state` of the status. -/
inductive GuardState where
  | observing
  | applied
  | error
deriving DecidableEq, Repr

/-- The panel and the broker. -/
structure BanSystem where
  policy : PanelPolicy
  executor : Option PanelPolicy
  state : GuardState
  store : GuardStore
  clock : ℚ

/-- {lit}`sync_ip_guard`. -/
def syncIpGuard (s : BanSystem) (call : SyncCall) : BanSystem :=
  if s.policy.enforce = true then
    match restoreBans jailFor lib cfg s.policy call s.store with
    | (.ok _, store) =>
        { s with
          executor := some s.policy, state := .applied, store := store, clock := call.ended }
    | (.error _, store) =>
        { s with executor := none, state := .error, store := store, clock := call.ended }
  else { s with executor := none, state := .observing, clock := call.ended }

/-- A call of {lit}`Guard.observe`. -/
structure ObserveCall where
  email : String
  rawIp : String
  now : ℚ
  env : Reachable
  now_le : now ≤ env.began

/-- {lit}`Guard.observe` with the executor. -/
def observeBanning (p : PanelPolicy) (call : ObserveCall) : Tx GuardStore Failure Decision := do
  demandPolicy (0 ≤ call.now ∧ call.now < 1000000000000000) "Invalid observation time"
  let guard := p.guard jailFor lib
  let ip ← Tx.demand (guard.normalizeIp call.rawIp) (.policyError "Invalid IP literal")
  match guard.clients call.email, guard.exemption ip with
  | none, _ => return .ignored
  | some _, some reason => return .exempt reason
  | some c, none =>
      if guard.direct = true then do
        let judgement ← onDb (judge guard c call.email ip call.now)
        match judgement with
        | .banned expiresAt => return .banned expiresAt
        | .allowed n => return .allow n c.limitIp
        | .refused => do
            let answer ← Tx.attempt (banFor jailFor lib cfg p call.env c.jail ip none)
            onDb (enforce guard c (some (answer.mapError BrokerError.text)) call.email ip call.now)
      else onDb (observeIndirect guard c call.email ip call.now)

/-- A call of {lit}`unban_ip`. -/
structure UnbanCall where
  rawIp : String
  env : Reachable
  now : ℚ
  ended_le : env.ended ≤ now

/-- {lit}`unban_ip`; the client normalizes the address again. -/
def unbanIp (call : UnbanCall) : Tx GuardStore BrokerError BrokerAnswer := do
  let ip ← Tx.ofExcept (normalizeIp lib (.value (.str call.rawIp)))
  let ip' ← Tx.ofExcept (normalizeIp lib (.value (.str ip)))
  let answer ← onFirewall (request lib cfg call.env (unbanMessage ip'))
  onDb (Tx.write fun db =>
    { db with
      bans := db.bans.mapRows fun k row => if k.2 = ip then releaseBan call.now row else row
      observations := db.observations.filterRows fun k row => k.2 ≠ ip || row.granted })
  return answer

/-! ## Groups -/

section Groups

variable {jailFor} {p : PanelPolicy} {jail : String} {ports : List ℤ}

theorem mem_of_lookup {key : String} {value : List ℤ} {rows : List (String × List ℤ)}
    (h : rows.lookup key = some value) : (key, value) ∈ rows := by
  obtain ⟨before, after, rfl, -⟩ := List.lookup_eq_some_iff.mp h
  simp

/-- A group is that of a client. -/
theorem exists_client_of_jails (h : p.jails jailFor jail = some ports) :
    ∃ c ∈ p.clients, c.2.limitIp ≠ 0 ∧ jailFor c.2.ports = jail ∧ c.2.ports = ports := by
  have hmem := mem_of_lookup h
  rw [PanelPolicy.groups, List.mem_reverse, List.mem_map] at hmem
  obtain ⟨c, hc, heq⟩ := hmem
  rw [List.mem_filter, decide_eq_true_eq] at hc
  obtain ⟨rfl, rfl⟩ := Prod.mk.inj heq
  exact ⟨c, hc.1, hc.2, rfl, rfl⟩

/-- The broker takes the ports of a group as they are. -/
theorem jails_normal (h : p.jails jailFor jail = some ports) :
    normalizePorts (portsArg ports) = .ok ports ∧ ports ≠ [] := by
  obtain ⟨c, hc, -, -, rfl⟩ := exists_client_of_jails h
  exact ⟨p.ports_normal c hc, p.ports_ne_nil c hc⟩

/-- The ports of a group are requested. -/
theorem mem_requested (h : p.jails jailFor jail = some ports) {port : ℤ} (hport : port ∈ ports) :
    port ∈ p.requested jailFor := by
  rw [PanelPolicy.requested, List.mem_flatMap]
  refine ⟨jail, List.mem_map.mpr ⟨(jail, ports), mem_of_lookup h, rfl⟩, ?_⟩
  rw [h]
  exact hport

end Groups

/-! ## The transaction of an observation -/

/-- The transaction leaves the bans, and finds no violation by an address that is banned. -/
theorem wp_judge_bans {guard : GuardPolicy} {c : ClientPolicy} {email ip : String} {now : ℚ}
    {db : GuardDb} : (judge guard c email ip now).wp
      (fun judgement db' => db'.bans = db.bans ∧ (judgement = .refused → ∀ row,
        db.bans.get? (c.jail, ip) = some row → row.state = "applied" → row.expiresAt ≤ now))
      (fun _ db' => db'.bans = db.bans) db := by
  unfold judge
  rw [Tx.wp_transaction, Tx.wp_bind, Tx.wp_read]
  cases hban : (db.bans.get? (c.jail, ip)).filter fun b =>
      decide (now < b.expiresAt) && b.state = "applied" with
  | some b =>
      rw [Tx.wp_pure]
      refine ⟨rfl, fun h => ?_⟩
      cases h
  | none =>
      simp only [Tx.wp_bind, Tx.wp_read, Tx.wp_write, Tx.wp_when]
      have hnone : ∀ row, db.bans.get? (c.jail, ip) = some row → row.state = "applied" →
          row.expiresAt ≤ now := by
        intro row hrow hstate
        rw [Option.filter_eq_none_iff] at hban
        have hnot := hban row hrow
        simpa [hstate] using hnot
      refine ⟨fun _ => ?_, fun _ => ?_⟩
      · split
        · exact ⟨rfl, fun _ => hnone⟩
        · exact ⟨rfl, fun _ => hnone⟩
      · split
        · exact ⟨rfl, fun _ => hnone⟩
        · exact ⟨rfl, fun _ => hnone⟩

end Policy
end DarkXray
