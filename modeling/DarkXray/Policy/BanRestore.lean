import DarkXray.Policy.BanReplay
import DarkXray.Policy.BrokerRuns

/-!
# Restoring bans

What the executor does to the sets of the broker, and when a synchronization puts every ban back
into force.

Main results:

- Theorem {lit}`wp_executorBan`: what a ban that the executor asks for does.
- Theorem {lit}`wp_executorBan_accepts`: when the broker accepts it.
- Theorem {lit}`wp_restoreBans`: when every ban is restored.
-/

namespace DarkXray
namespace Policy

open Library

variable {α : Type} {lib : IpLibrary α} {cfg : BrokerConfig} {jailFor : List ℤ → String}

/-! ## The executor -/

/-- The canonical text of an address is that of the address it reads as. -/
def Canonical (lib : IpLibrary α) : Prop :=
  ∀ raw ip, normalizeIp lib raw = .ok ip → normalizeIp lib (.value (.str ip)) = .ok ip

/-- The leases of an address and some ports that have ended are renewed. -/
def Rebans (cfg : BrokerConfig) (env : Environment) (s : FirewallState) (ip : String)
    (ports : List ℤ) (seconds : ℤ) (t : FirewallState) : Prop :=
  ∃ keys, Adds cfg env s ip keys seconds ∧ (∀ k ∈ keys, k.2 ∈ ports) ∧
    (∀ port ∈ ports, (ip, port) ∈ keys ∨ s.leases.alive (ip, port) env.now = true) ∧
    t = banned env s keys seconds

/-- When the broker accepts a ban. -/
structure Accepts (lib : IpLibrary α) (cfg : BrokerConfig) (s : FirewallState) (ip : String)
    (ports : List ℤ) (seconds : ℤ) : Prop where
  ready : s.ready = true
  verified : cfg.directSourceVerified = true
  address : brokerIp lib cfg (.value (.str ip)) = .ok ip
  ne_nil : ports ≠ []
  runtime : ∀ port ∈ ports, port ∈ s.runtimePorts
  unprotected : ∀ port ∈ ports, port ∉ cfg.protectedPorts
  least : 10 ≤ seconds
  most : seconds ≤ cfg.maxBanSeconds
  room : s.leases.rows.length + ports.length ≤ 100000

section Executor

variable {env : Reachable} {s : FirewallState} {ip jail : String} {ports : List ℤ} {seconds : ℤ}

/-- A request to ban is read as one. -/
theorem operationOf_banMessage : operationOf (banMessage ip ports seconds) = .ok .ban := by
  simp [operationOf, banMessage, getArg, operations, List.lookup_cons]

/-- What a request to ban does. -/
theorem request_banMessage : request lib cfg env (banMessage ip ports seconds) = (do
    let ready ← Tx.read FirewallState.ready
    Tx.require (ready = true) (BrokerError.policy "Firewall broker not initialized")
    let ip ← Tx.ofExcept (brokerIp lib cfg (.value (.str ip)))
    ban cfg env.toEnvironment ip (portsArg ports) (.value (.int seconds))) := by
  have huid : (Tx.require (cfg.allowedUid = cfg.allowedUid)
      (.policy "Unix peer UID is not authorized") : BrokerCall Unit) = pure () := if_pos rfl
  funext s
  unfold request dispatch
  simp only [huid, Tx.demand, Tx.ofExcept, Tx.bind_apply, Tx.pure_apply, operationOf_banMessage]
  rfl

/-- An integer argument is read as it is. -/
theorem integerArg_int {n minimum maximum m : ℤ}
    (h : integerArg (.value (.int n)) minimum maximum = .ok m) : m = n := by
  unfold integerArg integer at h
  dsimp only at h
  split at h
  · exact (Except.ok.inj h).symm
  · cases h

/-- What a message {lit}`ban` does. -/
theorem wp_request_ban (hports : normalizePorts (portsArg ports) = .ok ports)
    (hip : ∀ ip', brokerIp lib cfg (.value (.str ip)) = .ok ip' → ip' = ip) :
    (request lib cfg env (banMessage ip ports seconds)).wp
      (fun _ t => brokerIp lib cfg (.value (.str ip)) = .ok ip ∧
        Rebans cfg env.toEnvironment s ip ports seconds t)
      (fun _ t => Drops s t) s := by
  rw [request_banMessage]
  simp only [Tx.wp_bind, Tx.wp_read, Tx.wp_require, Tx.wp_ofExcept]
  refine ⟨fun _ => ⟨fun ip' haddress => ?_, fun _ _ => Drops.refl s⟩, fun _ => Drops.refl s⟩
  obtain rfl := hip ip' haddress
  refine Tx.wp_mono (wp_ban ip' _ _) ?_ fun _ _ h => h
  rintro answer t ⟨-, values, n, keys, hvalues, hn, hadds, hmem, hcovers, rfl⟩
  rw [hports] at hvalues
  obtain rfl := Except.ok.inj hvalues
  obtain rfl := integerArg_int hn
  exact ⟨haddress, keys, hadds, hmem, hcovers, rfl⟩

/-- A message {lit}`ban` that the broker accepts. -/
theorem wp_request_ban_accepts (hports : normalizePorts (portsArg ports) = .ok ports)
    (h : Accepts lib cfg s ip ports seconds) :
    (request lib cfg env (banMessage ip ports seconds)).wp (fun _ _ => True) (fun _ _ => False)
      s := by
  have hseconds : integerArg (.value (.int seconds)) 10 cfg.maxBanSeconds = .ok seconds := by
    unfold integerArg integer
    dsimp only
    rw [if_pos ⟨h.least, h.most⟩]
    rfl
  have hroom : ¬ 100000 < (s.leases.purge env.now).rows.length + ports.length := by
    have hpurge := Table.length_purge_le s.leases env.now
    have hlease := h.room
    omega
  rw [request_banMessage]
  unfold ban addElements runScript
  simp only [Tx.wp_bind, Tx.wp_read, Tx.wp_require, Tx.wp_ofExcept, Tx.wp_write, Tx.wp_when,
    Tx.wp_pure, h.address, hports, hseconds, env.completed, implies_true, and_true]
  have hgroup : ports ≠ [] ∧ (∀ p ∈ ports, p ∈ s.runtimePorts) ∧
      ∀ p ∈ ports, p ∉ cfg.protectedPorts :=
    ⟨h.ne_nil, h.runtime, h.unprotected⟩
  simp only [Except.ok.injEq, forall_eq', reduceCtorEq, IsEmpty.forall_iff, implies_true, and_true,
    h.ready, h.verified, hroom, not_true_eq_false, not_false_eq_true, true_and]
  exact fun _ _ hnot => hnot hgroup

/-- What a ban that the executor asks for does. -/
theorem wp_executorBan (p : PanelPolicy) (duration : Option ℤ)
    (hip : normalizeIp lib (.value (.str ip)) = .ok ip) :
    (executorBan jailFor lib cfg p env jail ip duration).wp
      (fun _ t => ∃ ports, p.jails jailFor jail = some ports ∧
        brokerIp lib cfg (.value (.str ip)) = .ok ip ∧
        Rebans cfg env.toEnvironment s ip ports (duration.getD p.banSeconds) t)
      (fun _ t => Drops s t) s := by
  unfold executorBan
  simp only [Tx.wp_bind, Tx.wp_demand, Tx.wp_require, Tx.wp_ofExcept]
  refine ⟨fun ports hjail => ⟨fun _ => ⟨fun ip' hip' => ?_, fun _ _ => Drops.refl s⟩,
    fun _ => Drops.refl s⟩, fun _ => Drops.refl s⟩
  rw [hip] at hip'
  obtain rfl := Except.ok.inj hip'
  have hsame : ∀ ip', brokerIp lib cfg (.value (.str ip)) = .ok ip' → ip' = ip := by
    intro ip' haddress
    have hnormal := (brokerIp_ok haddress).1
    rw [hip] at hnormal
    exact (Except.ok.inj hnormal).symm
  refine Tx.wp_mono (wp_request_ban (jails_normal hjail).1 hsame) ?_ fun _ _ h => h
  rintro answer t ⟨haddress, hrebans⟩
  exact ⟨ports, hjail, haddress, hrebans⟩

/-- A ban that the executor asks for and the broker accepts. -/
theorem wp_executorBan_accepts {p : PanelPolicy} (hjail : p.jails jailFor jail = some ports)
    (hip : normalizeIp lib (.value (.str ip)) = .ok ip)
    (h : Accepts lib cfg s ip ports seconds) :
    (executorBan jailFor lib cfg p env jail ip (some seconds)).wp (fun _ _ => True)
      (fun _ _ => False) s := by
  have hpositive : 0 < seconds := lt_of_lt_of_le (by decide) h.least
  unfold executorBan
  simp only [Tx.wp_bind, Tx.wp_demand, Tx.wp_require, Tx.wp_ofExcept, hjail, hip,
    Option.some.injEq, forall_eq', Except.ok.injEq, reduceCtorEq, IsEmpty.forall_iff,
    implies_true, and_true, Option.getD_some, hpositive, not_true_eq_false]
  exact fun _ => wp_request_ban_accepts (jails_normal hjail).1 h

/-- A status request is read as one. -/
theorem operationOf_statusMessage : operationOf statusMessage = .ok .status := by
  simp [operationOf, statusMessage, getArg, operations]

/-- A message {lit}`status`. -/
theorem wp_request_status (hready : s.ready = true) :
    (request lib cfg env statusMessage).wp
      (fun answer t => t = { s with leases := s.leases.purge env.now } ∧
        ∃ found, answer = .status found ∧ found.allowedPorts = s.runtimePorts ∧
          found.directSourceVerified = cfg.directSourceVerified ∧
          found.maxBanSeconds = cfg.maxBanSeconds)
      (fun _ _ => False) s := by
  unfold request dispatch status runScript
  simp only [Tx.wp_bind, Tx.wp_require, Tx.wp_demand, Tx.wp_ofExcept, Option.some.injEq,
    forall_eq', operationOf_statusMessage, Except.ok.injEq, reduceCtorEq, IsEmpty.forall_iff,
    implies_true, and_true, not_true_eq_false, env.completed, Tx.wp_read, Tx.wp_write, Tx.wp_pure,
    hready]
  exact fun _ _ => ⟨trivial, _, rfl, rfl, rfl, rfl⟩

/-- A request to unban is read as one. -/
theorem operationOf_unbanMessage : operationOf (unbanMessage ip) = .ok .unban := by
  simp [operationOf, unbanMessage, getArg, operations, List.lookup_cons]

/-- A message {lit}`unban`. -/
theorem wp_request_unban (hip : normalizeIp lib (.value (.str ip)) = .ok ip) :
    (request lib cfg env (unbanMessage ip)).wp
      (fun _ t => Drops s t ∧
        ∀ port ∈ s.runtimePorts, Gone env.toEnvironment (element (ip, port)) t)
      (fun _ t => Drops s t) s := by
  have harg : getArg (unbanMessage ip) "ip" (.value .none) = .value (.str ip) := rfl
  unfold request dispatch
  simp only [Tx.wp_bind, Tx.wp_require, Tx.wp_demand, Tx.wp_ofExcept, Option.some.injEq,
    forall_eq', operationOf_unbanMessage, Except.ok.injEq, reduceCtorEq, IsEmpty.forall_iff,
    implies_true, and_true, not_true_eq_false, Tx.wp_read, harg]
  refine fun _ => ⟨fun _ => ⟨fun ip' haddress => ?_, fun _ _ => Drops.refl s⟩,
    fun _ => Drops.refl s⟩
  have hnormal := (brokerIp_ok haddress).1
  rw [hip] at hnormal
  obtain rfl := Except.ok.inj hnormal
  refine Tx.wp_mono (wp_unban ip) ?_ fun _ _ h => h
  rintro answer t ⟨-, hdrops, hgone⟩
  refine ⟨hdrops, hgone fun port _ _ hrefused => ?_⟩
  rw [env.completed] at hrefused
  cases hrefused

end Executor

/-! ## Between the operations -/

/-- What holds of the tables and the sets at an instant. -/
structure BanInv (lib : IpLibrary α) (cfg : BrokerConfig) (now : ℚ) (s : GuardStore) : Prop where
  watched : Watched cfg s.firewall
  ready : s.firewall.ready = true
  runtimePorts : s.firewall.runtimePorts = cfg.allowedPorts
  ports : ∀ el x, s.firewall.elements.get? el = some x → el.2.2 ∈ cfg.allowedPorts
  address : ∀ k row, s.db.bans.get? k = some row →
    brokerIp lib cfg (.value (.str k.2)) = .ok k.2
  most : ∀ k row, s.db.bans.get? k = some row → row.expiresAt ≤ now + cfg.maxBanSeconds
  released : ∀ k row, s.db.bans.get? k = some row → row.state ≠ "applied" → row.expiresAt ≤ now
  /-- An element in force outlives its row by a second at most. -/
  outlives : ∀ el x, s.firewall.elements.get? el = some x → now < x →
    ∃ jail row, s.cause el = some jail ∧ s.db.bans.get? (jail, el.2.1) = some row ∧
      x ≤ row.expiresAt + 1

/-- What is in force at the start of an operation has a lease until its end. -/
def Steady (began ended : ℚ) (s : FirewallState) : Prop :=
  ∀ k, s.elements.alive (element k) began = true → s.leases.alive k ended = true

section Invariant

variable {s t : GuardStore} {f : FirewallState} {now began ended : ℚ} {env : Environment}
  {ip jail : String} {ports : List ℤ} {seconds : ℤ}

/-- The invariant holds later. -/
theorem BanInv.later {now' : ℚ} (h : BanInv lib cfg now s) (hle : now ≤ now') :
    BanInv lib cfg now' s where
  watched := h.watched
  ready := h.ready
  runtimePorts := h.runtimePorts
  ports := h.ports
  address := h.address
  most := fun k row hrow => (h.most k row hrow).trans (add_le_add hle le_rfl)
  released := fun k row hrow hstate => (h.released k row hrow hstate).trans hle
  outlives := fun el x hx hlt => h.outlives el x hx (lt_of_le_of_lt hle hlt)

/-- Observations and events do not matter. -/
theorem BanInv.of_bans {db : GuardDb} (h : BanInv lib cfg now s) (hbans : db.bans = s.db.bans) :
    BanInv lib cfg now { s with db := db } where
  watched := h.watched
  ready := h.ready
  runtimePorts := h.runtimePorts
  ports := h.ports
  address := fun k row hrow => h.address k row (hbans ▸ hrow)
  most := fun k row hrow => h.most k row (hbans ▸ hrow)
  released := fun k row hrow => h.released k row (hbans ▸ hrow)
  outlives := by
    intro el x hx hlt
    obtain ⟨jail, row, hcause, hrow, hle⟩ := h.outlives el x hx hlt
    exact ⟨jail, row, hcause, hbans.symm ▸ hrow, hle⟩

/-- Dropped elements do not matter. -/
theorem BanInv.drops {cause : Element → Option String} (h : BanInv lib cfg now s)
    (hdrops : Drops s.firewall f)
    (hcause : ∀ el x, f.elements.get? el = some x → cause el = s.cause el) :
    BanInv lib cfg now { s with firewall := f, cause := cause } where
  watched := hdrops.watched h.watched
  ready := hdrops.ready.trans h.ready
  runtimePorts := hdrops.runtimePorts.trans h.runtimePorts
  ports := fun el x hx => h.ports el x (hdrops.elements el x hx)
  address := h.address
  most := h.most
  released := h.released
  outlives := by
    intro el x hx hlt
    obtain ⟨jail, row, hjail, hrow, hle⟩ := h.outlives el x (hdrops.elements el x hx) hlt
    exact ⟨jail, row, (hcause el x hx).trans hjail, hrow, hle⟩

/-- Dropping elements leaves the cause of the others. -/
theorem blame_drops {cause : Element → Option String} {f' : FirewallState} (h : Drops f f')
    {el : Element} {x : ℚ} (hx : f'.elements.get? el = some x) :
    blame f f' jail cause el = cause el := by
  unfold blame
  rw [if_pos ((hx.trans (h.elements el x hx).symm))]

/-- A new row of an address that is not banned. -/
theorem BanInv.upsert (h : BanInv lib cfg now s) {row : BanRow}
    (haddress : brokerIp lib cfg (.value (.str ip)) = .ok ip)
    (hold : ∀ old, s.db.bans.get? (jail, ip) = some old → old.state = "applied" →
      old.expiresAt ≤ now)
    (hstate : row.state = "applied") (hleast : now ≤ row.expiresAt)
    (hmost : row.expiresAt ≤ now + cfg.maxBanSeconds) :
    BanInv lib cfg now
      { s with db := { s.db with bans := s.db.bans.upsert (jail, ip) row fun _ => row } } := by
  have hget : ∀ k, (s.db.bans.upsert (jail, ip) row fun _ => row).get? k =
      if k = (jail, ip) then some row else s.db.bans.get? k := by
    intro k
    rw [Table.get?_upsert]
    by_cases hk : k = (jail, ip)
    · rw [if_pos hk, if_pos hk]
      cases s.db.bans.get? (jail, ip) <;> rfl
    · rw [if_neg hk, if_neg hk]
  refine ⟨h.watched, h.ready, h.runtimePorts, h.ports, ?_, ?_, ?_, ?_⟩
  · intro k row' hrow
    rw [hget] at hrow
    split at hrow
    · rename_i hk
      rw [hk]
      exact haddress
    · exact h.address k row' hrow
  · intro k row' hrow
    rw [hget] at hrow
    split at hrow
    · obtain rfl := Option.some.inj hrow
      exact hmost
    · exact h.most k row' hrow
  · intro k row' hrow hnot
    rw [hget] at hrow
    split at hrow
    · obtain rfl := Option.some.inj hrow
      exact (hnot hstate).elim
    · exact h.released k row' hrow hnot
  · intro el x hx hlt
    obtain ⟨jail', old, hcause, hrow, hle⟩ := h.outlives el x hx hlt
    by_cases hk : (jail', el.2.1) = (jail, ip)
    · refine ⟨jail', row, hcause, ?_, ?_⟩
      · rw [hget, if_pos hk]
      · rw [hk] at hrow
        have hended : old.expiresAt ≤ now := by
          by_cases happlied : old.state = "applied"
          · exact hold old hrow happlied
          · exact h.released _ old hrow happlied
        linarith
    · refine ⟨jail', old, hcause, ?_, hle⟩
      rw [hget, if_neg hk]
      exact hrow

/-- A ban that was accepted, for a row whose end it does not pass by more than a second. -/
theorem BanInv.rebans (h : BanInv lib cfg now s) {row : BanRow}
    (hrebans : Rebans cfg env s.firewall ip ports seconds f)
    (hsteady : ∀ port, s.firewall.elements.alive (element (ip, port)) env.now = true →
      s.firewall.leases.alive (ip, port) env.now = true)
    (hrow : s.db.bans.get? (jail, ip) = some row)
    (hend : env.ended + seconds ≤ row.expiresAt + 1) :
    BanInv lib cfg now
      { s with firewall := f, cause := blame s.firewall f jail s.cause } := by
  obtain ⟨keys, hadds, -, -, rfl⟩ := hrebans
  have hdead : ∀ k ∈ keys, s.firewall.elements.alive (element k) env.now = false := by
    rintro ⟨ip', port⟩ hk
    obtain rfl := hadds.address _ hk
    rw [← Bool.not_eq_true]
    intro halive
    exact Bool.false_ne_true ((hadds.ended _ hk).symm.trans (hsteady port halive))
  refine ⟨hadds.watched hdead h.watched, h.ready, h.runtimePorts, ?_, h.address, h.most,
    h.released, ?_⟩
  · intro el x hx
    rw [get?_banned hadds.nodup hdead] at hx
    split at hx
    · rename_i hmem
      obtain ⟨k, hk, rfl⟩ := List.mem_map.mp hmem
      exact h.runtimePorts ▸ hadds.runtime k hk
    · exact h.ports el x hx
  · intro el x hx hlt
    have hbefore := hx
    rw [get?_banned hadds.nodup hdead] at hx
    split at hx
    · rename_i hmem
      obtain ⟨k, hk, rfl⟩ := List.mem_map.mp hmem
      obtain rfl := Option.some.inj hx
      have hmoment := env.moment_le_ended (.addElements (keys.map element) seconds)
      have hlater := env.now_le_moment (keys.map element) seconds
      have hleast : (10 : ℚ) ≤ seconds := by exact_mod_cast hadds.least
      refine ⟨jail, row, ?_, ?_, by linarith⟩
      · -- an element that is renewed was not in force, so its entry changes
        refine if_neg fun heq => ?_
        have halive : s.firewall.elements.alive (element k) env.now = true :=
          Table.alive_iff.mpr ⟨_, heq.symm.trans hbefore, by linarith⟩
        exact Bool.false_ne_true ((hdead k hk).symm.trans halive)
      · rw [show (element k).2.1 = ip from hadds.address k hk]
        exact hrow
    · obtain ⟨jail', row', hcause, hrow', hle⟩ := h.outlives el x hx hlt
      refine ⟨jail', row', ?_, hrow', hle⟩
      exact (if_pos (hbefore.trans hx.symm)).trans hcause

end Invariant

section Leases

variable {s t : FirewallState} {began ended : ℚ} {env : Environment} {ip : String}
  {ports : List ℤ} {seconds : ℤ}

/-- A lease that ends later is not lost. -/
theorem Rebans.persists (h : Rebans cfg env s ip ports seconds t) (hnow : env.now ≤ ended)
    (hlong : ended < env.now + seconds) {k : String × ℤ} (hk : s.leases.alive k ended = true) :
    t.leases.alive k ended = true := by
  obtain ⟨keys, -, -, -, rfl⟩ := h
  have hget := Table.get?_putAll (env.now + (seconds : ℚ)) (s.leases.purge env.now) keys k
  by_cases hmem : k ∈ keys
  · rw [if_pos hmem] at hget
    exact Table.alive_iff.mpr ⟨_, hget, hlong⟩
  · rw [if_neg hmem] at hget
    obtain ⟨v, hv, hlt⟩ := Table.alive_iff.mp (Table.alive_purge_of_le hk hnow)
    exact Table.alive_iff.mpr ⟨v, hget.trans hv, hlt⟩

/-- The leases of the address and the ports end later. -/
theorem Rebans.covers (h : Rebans cfg env s ip ports seconds t)
    (hbacked : Backs element s.elements s.leases) (hsteady : Steady began ended s)
    (hbegan : began ≤ env.now) (hnow : env.now ≤ ended) (hlong : ended < env.now + seconds) :
    ∀ port ∈ ports, t.leases.alive (ip, port) ended = true := by
  intro port hport
  have hpersists := h.persists hnow hlong (k := (ip, port))
  obtain ⟨keys, -, -, hcovers, rfl⟩ := h
  rcases hcovers port hport with hmem | halive
  · have hget := Table.get?_putAll (env.now + (seconds : ℚ)) (s.leases.purge env.now) keys
      (ip, port)
    rw [if_pos hmem] at hget
    exact Table.alive_iff.mpr ⟨_, hget, hlong⟩
  · exact hpersists (hsteady _ (Table.alive_mono (hbacked.alive halive) hbegan))

/-- A restored ban keeps the leases steady. -/
theorem Rebans.steady (h : Rebans cfg env s ip ports seconds t) (hsteady : Steady began ended s)
    (hbegan : began ≤ env.now) (hnow : env.now ≤ ended) (hlong : ended < env.now + seconds) :
    Steady began ended t := by
  intro k hk
  have hpersists := h.persists hnow hlong (k := k)
  obtain ⟨keys, hadds, -, -, rfl⟩ := h
  by_cases hmem : k ∈ keys
  · have hget := Table.get?_putAll (env.now + (seconds : ℚ)) (s.leases.purge env.now) keys k
    rw [if_pos hmem] at hget
    exact Table.alive_iff.mpr ⟨_, hget, hlong⟩
  · have hdead : ∀ k ∈ keys, s.elements.alive (element k) env.now = false := by
      intro k hk
      rw [← Bool.not_eq_true]
      intro halive
      have hlease := Table.alive_mono (hsteady k (Table.alive_mono halive hbegan)) hnow
      exact Bool.false_ne_true ((hadds.ended k hk).symm.trans hlease)
    obtain ⟨x, hx, hlt⟩ := Table.alive_iff.mp hk
    rw [get?_banned hadds.nodup hdead,
      if_neg fun hmap => hmem ((List.mem_map_of_injective element_injective).mp hmap)] at hx
    exact hpersists (hsteady k (Table.alive_iff.mpr ⟨x, hx, hlt⟩))

/-- A restored ban adds one lease for each port at most. -/
theorem Rebans.length_le (h : Rebans cfg env s ip ports seconds t) :
    t.leases.rows.length ≤ s.leases.rows.length + ports.length := by
  obtain ⟨keys, hadds, hmem, -, rfl⟩ := h
  have hkeys : keys.length ≤ ports.length := by
    have hnodup : (keys.map Prod.snd).Nodup := by
      refine hadds.nodup.map_on fun a ha b hb heq => ?_
      exact Prod.ext ((hadds.address a ha).trans (hadds.address b hb).symm) heq
    have hsub : (keys.map Prod.snd) ⊆ ports := by
      intro port hport
      obtain ⟨k, hk, rfl⟩ := List.mem_map.mp hport
      exact hmem k hk
    rw [← List.length_map Prod.snd]
    exact (hnodup.subperm hsub).length_le
  have hput := Table.length_putAll_le (env.now + (seconds : ℚ)) (s.leases.purge env.now) keys
  have hpurge := Table.length_purge_le s.leases env.now
  exact hput.trans (Nat.add_le_add hpurge hkeys)

end Leases

/-! ## Synchronizing -/

/-- The broker has verified its sources, and approves what a policy asks for. -/
structure Approved (cfg : BrokerConfig) (jailFor : List ℤ → String) (p : PanelPolicy) : Prop where
  direct : p.direct = true
  verified : cfg.directSourceVerified = true
  ports : ∀ port ∈ p.requested jailFor, port ∈ cfg.allowedPorts
  seconds : p.banSeconds ≤ cfg.maxBanSeconds

/-- The leases that a replay may need. -/
def replaySize (jailFor : List ℤ → String) (p : PanelPolicy) (bans : List Ban) : ℕ :=
  (bans.map fun ban => ((p.jails jailFor ban.1.1).getD []).length).sum

section Sync

variable {p : PanelPolicy} {call : SyncCall} {s : GuardStore} {ports : List ℤ}

/-- A ban that the broker accepts is restored. -/
theorem wp_replayBan {ban : Ban} (hjail : p.jails jailFor ban.1.1 = some ports)
    (h : Accepts lib cfg s.firewall ban.1.2 ports (remainingSeconds call.now ban)) :
    (replayBan jailFor lib cfg p call ban).wp
      (fun _ t => ∃ f, Rebans cfg (call.ban ban.1).toEnvironment s.firewall ban.1.2 ports
        (remainingSeconds call.now ban) f ∧
          t = { s with firewall := f, cause := blame s.firewall f ban.1.1 s.cause })
      (fun _ _ => False) s := by
  have hip := (brokerIp_ok h.address).1
  unfold replayBan banFor
  rw [Tx.wp_handle, Tx.wp_bind, Tx.wp_within]
  refine Tx.wp_mono (Tx.wp_and (wp_executorBan p (some (remainingSeconds call.now ban)) hip)
    (wp_executorBan_accepts hjail hip h)) ?_ fun _ _ h => h.2.elim
  rintro _ f ⟨⟨ports', hjail', -, hrebans⟩, -⟩
  rw [hjail] at hjail'
  obtain rfl := Option.some.inj hjail'
  exact ⟨f, hrebans, rfl⟩

/-- The times of a synchronization, up to the ban of a group. -/
theorem SyncCall.times (call : SyncCall) (k : String × String) :
    call.began ≤ call.now ∧ call.now ≤ (call.ban k).now ∧ (call.ban k).now ≤ call.ended := by
  refine ⟨?_, (call.now_le_ban k).trans (call.ban k).began_le_now,
    (call.ban k).now_le_ended.trans (call.ban_le_ended k)⟩
  calc
    call.began ≤ call.check.began := call.began_le_check
    _ ≤ call.check.now := call.check.began_le_now
    _ ≤ call.check.ended := call.check.now_le_ended
    _ ≤ call.now := call.check_le_now

/-- The seconds that are asked for a ban of which ten are left: they reach past the end of a
short synchronization, and past the ban by a second at most. -/
theorem remainingSeconds_of_enough (hquick : call.ended ≤ call.began + 1) {ban : Ban}
    (henough : 10 ≤ ⌊ban.2.expiresAt - call.now⌋) :
    10 ≤ remainingSeconds call.now ban ∧
      (remainingSeconds call.now ban : ℚ) ≤ ban.2.expiresAt - call.now ∧
      call.ended < (call.ban ban.1).now + (remainingSeconds call.now ban : ℤ) ∧
      (call.ban ban.1).ended + (remainingSeconds call.now ban : ℤ) ≤ ban.2.expiresAt + 1 := by
  obtain ⟨hbegan, hnow, hended⟩ := call.times ban.1
  have hseconds : remainingSeconds call.now ban = ⌊ban.2.expiresAt - call.now⌋ :=
    max_eq_right (le_trans (by decide) henough)
  have hfloor := Int.floor_le (ban.2.expiresAt - call.now)
  have hten : (10 : ℚ) ≤ ⌊ban.2.expiresAt - call.now⌋ := by exact_mod_cast henough
  have hlast := call.ban_le_ended ban.1
  rw [hseconds]
  exact ⟨henough, hfloor, by linarith, by linarith⟩

/-- The broker accepts the ban that a row asks for. -/
theorem BanInv.accepts (hp : Approved cfg jailFor p) (hinv : BanInv lib cfg call.began s)
    (hquick : call.ended ≤ call.began + 1) {ban : Ban} (hrow : s.db.bans.get? ban.1 = some ban.2)
    (hjail : p.jails jailFor ban.1.1 = some ports) (henough : 10 ≤ ⌊ban.2.expiresAt - call.now⌋)
    (hroom : s.firewall.leases.rows.length + ports.length ≤ 100000) :
    Accepts lib cfg s.firewall ban.1.2 ports (remainingSeconds call.now ban) := by
  obtain ⟨hleast, hfloor, -, -⟩ := remainingSeconds_of_enough hquick henough
  have hruntime : ∀ port ∈ ports, port ∈ s.firewall.runtimePorts := fun port hport =>
    hinv.runtimePorts.symm ▸ hp.ports port (mem_requested hjail hport)
  have hmost : remainingSeconds call.now ban ≤ cfg.maxBanSeconds := by
    have hrange := hinv.most _ _ hrow
    have hbegan := (call.times ban.1).1
    have hcast : (remainingSeconds call.now ban : ℚ) ≤ (cfg.maxBanSeconds : ℤ) := by
      linarith
    exact_mod_cast hcast
  exact {
    ready := hinv.ready
    verified := hp.verified
    address := hinv.address _ _ hrow
    ne_nil := (jails_normal hjail).2
    runtime := hruntime
    unprotected := fun port hport => hinv.watched.runtimePorts port (hruntime port hport)
    least := hleast
    most := hmost
    room := hroom }

/-- The loop restores every ban, if ten seconds of each are left. -/
theorem wp_replayBans (hp : Approved cfg jailFor p) (hquick : call.ended ≤ call.began + 1)
    (rows : List Ban) (s : GuardStore) (hinv : BanInv lib cfg call.began s)
    (hsteady : Steady call.began call.ended s.firewall)
    (hrows : ∀ ban ∈ rows, s.db.bans.get? ban.1 = some ban.2 ∧
      (∃ ports, p.jails jailFor ban.1.1 = some ports) ∧ 10 ≤ ⌊ban.2.expiresAt - call.now⌋)
    (hroom : s.firewall.leases.rows.length + replaySize jailFor p rows ≤ 100000) :
    (replayBans jailFor lib cfg p call rows).wp
      (fun _ t => t.db = s.db ∧ BanInv lib cfg call.began t ∧
        (∀ k, s.firewall.leases.alive k call.ended = true →
          t.firewall.leases.alive k call.ended = true) ∧
        ∀ ban ∈ rows, ∀ ports, p.jails jailFor ban.1.1 = some ports →
          ∀ port ∈ ports, t.firewall.leases.alive (ban.1.2, port) call.ended = true)
      (fun _ _ => False) s := by
  induction rows generalizing s with
  | nil => exact ⟨rfl, hinv, fun _ hk => hk, fun _ hban => (List.not_mem_nil hban).elim⟩
  | cons ban rest ih =>
      obtain ⟨hrow, ⟨ports, hjail⟩, henough⟩ := hrows ban List.mem_cons_self
      have hsize : replaySize jailFor p (ban :: rest) =
          ports.length + replaySize jailFor p rest := by
        simp [replaySize, hjail]
      rw [hsize] at hroom
      obtain ⟨hbegan, hnow, hended⟩ := call.times ban.1
      obtain ⟨-, -, hlong, hend⟩ := remainingSeconds_of_enough hquick henough
      have haccepts := hinv.accepts hp hquick hrow hjail henough (by omega)
      unfold replayBans
      rw [Tx.wp_bind]
      refine Tx.wp_mono (wp_replayBan hjail haccepts) ?_ fun _ _ h => h
      rintro restored t ⟨f, hrebans, rfl⟩
      rw [Tx.wp_bind]
      have hlease : ∀ port, s.firewall.elements.alive (element (ban.1.2, port))
          (call.ban ban.1).now = true →
            s.firewall.leases.alive (ban.1.2, port) (call.ban ban.1).now = true :=
        fun port halive => Table.alive_mono
          (hsteady _ (Table.alive_mono halive (hbegan.trans hnow))) hended
      have hroom' : f.leases.rows.length + replaySize jailFor p rest ≤ 100000 := by
        have hlength := hrebans.length_le
        omega
      refine Tx.wp_mono (ih _ (hinv.rebans hrebans hlease hrow hend)
        (hrebans.steady hsteady (hbegan.trans hnow) hended hlong)
        (fun ban' hban' => hrows ban' (List.mem_cons_of_mem _ hban')) hroom') ?_ fun _ _ h => h
      rintro n u ⟨hdb, hinv', hpersists, hcovers⟩
      rw [Tx.wp_pure]
      refine ⟨hdb, hinv', fun k hk => hpersists k (hrebans.persists hended hlong hk), ?_⟩
      intro ban' hban' ports' hjail' port hport
      rcases List.mem_cons.mp hban' with rfl | hrest
      · rw [hjail] at hjail'
        obtain rfl := Option.some.inj hjail'
        exact hpersists _ (hrebans.covers hinv.watched.backed hsteady (hbegan.trans hnow) hended
          hlong port hport)
      · exact hcovers ban' hrest ports' hjail' port hport

/-- The check of the executor passes and drops leases that have ended. -/
theorem wp_executorCheck {env : Reachable} {f : FirewallState} (hp : Approved cfg jailFor p)
    (hready : f.ready = true) (hports : f.runtimePorts = cfg.allowedPorts) :
    (executorCheck jailFor lib cfg p env).wp
      (fun _ t => t = { f with leases := f.leases.purge env.now }) (fun _ _ => False) f := by
  unfold executorCheck
  rw [Tx.wp_bind]
  refine Tx.wp_mono (wp_request_status hready) ?_ fun _ _ h => h
  rintro answer t ⟨rfl, found, rfl, hallowed, hverified, hmost⟩
  have hmissing : ((p.requested jailFor).dedup.filter fun port =>
      port ∉ found.allowedPorts) = [] := by
    rw [List.filter_eq_nil_iff]
    intro port hport hnot
    rw [hallowed, hports] at hnot
    exact (of_decide_eq_true hnot) (hp.ports port (List.mem_dedup.mp hport))
  simp only [Tx.wp_bind, Tx.wp_require, hmissing, hverified, hp.verified, hmost, hp.seconds,
    List.insertionSort_nil, not_true_eq_false, IsEmpty.forall_iff, and_true, true_implies]

/-- Dropping leases that have ended keeps the others steady. -/
theorem Steady.purge {began ended now : ℚ} {f : FirewallState} (h : Steady began ended f)
    (hle : now ≤ ended) : Steady began ended { f with leases := f.leases.purge now } :=
  fun k hk => Table.alive_purge_of_le (h k hk) hle

/-- Dropping leases that have ended keeps the invariant. -/
theorem BanInv.purge {now time : ℚ} (h : BanInv lib cfg now s) :
    BanInv lib cfg now
      { s with firewall := { s.firewall with leases := s.firewall.leases.purge time } } :=
  h.drops (Drops.purge s.firewall time) fun _ _ _ => rfl

/-- When every ban is restored: the synchronization is short, what is in force has a lease until
its end, the groups of the bans are managed, ten whole seconds of each are left, and there is room
for their leases. -/
structure Replayable (jailFor : List ℤ → String) (p : PanelPolicy) (s : GuardStore)
    (call : SyncCall) : Prop where
  quick : call.ended ≤ call.began + 1
  steady : Steady call.began call.ended s.firewall
  managed : ∀ ban ∈ s.db.bans.rows, activeBan call.now ban = true →
    ∃ ports, p.jails jailFor ban.1.1 = some ports
  enough : ∀ ban ∈ s.db.bans.rows, activeBan call.now ban = true →
    10 ≤ ⌊ban.2.expiresAt - call.now⌋
  room : s.firewall.leases.rows.length +
    replaySize jailFor p (s.db.bans.rows.filter (activeBan call.now)) ≤ 100000

/-- The bans are restored. -/
theorem wp_restoreBans (hp : Approved cfg jailFor p) (hinv : BanInv lib cfg call.began s)
    (hreplay : Replayable jailFor p s call) :
    (restoreBans jailFor lib cfg p call).wp
      (fun _ t => t.db = s.db ∧ BanInv lib cfg call.ended t ∧
        ∀ ban ∈ s.db.bans.rows, activeBan call.now ban = true → ∀ ports,
          p.jails jailFor ban.1.1 = some ports → ∀ port ∈ ports,
            t.firewall.elements.alive (element (ban.1.2, port)) call.ended = true)
      (fun _ _ => False) s := by
  have hcheck : call.check.now ≤ call.ended := calc
    call.check.now ≤ call.check.ended := call.check.now_le_ended
    _ ≤ call.now := call.check_le_now
    _ ≤ call.last.began := call.now_le_last
    _ ≤ call.last.now := call.last.began_le_now
    _ ≤ call.last.ended := call.last.now_le_ended
    _ ≤ call.ended := call.last_le_ended
  have hlast : call.last.now ≤ call.ended := call.last.now_le_ended.trans call.last_le_ended
  have hbegan : call.began ≤ call.ended :=
    (call.began_le_check.trans call.check.began_le_now).trans hcheck
  unfold restoreBans onFirewall
  simp only [Tx.wp_bind, Tx.wp_require, hp.direct, Tx.wp_within, Tx.wp_read, Tx.wp_when,
    not_true_eq_false, IsEmpty.forall_iff, and_true, true_implies]
  refine Tx.wp_mono (wp_executorCheck hp hinv.ready hinv.runtimePorts) ?_ fun _ _ h => h
  rintro _ f rfl
  have hrows : ∀ ban ∈ s.db.bans.rows.filter (activeBan call.now),
      s.db.bans.get? ban.1 = some ban.2 ∧ (∃ ports, p.jails jailFor ban.1.1 = some ports) ∧
        10 ≤ ⌊ban.2.expiresAt - call.now⌋ := by
    intro ban hban
    obtain ⟨hmem, hactive⟩ := List.mem_filter.mp hban
    exact ⟨Table.get?_eq_some_iff.mpr hmem, hreplay.managed ban hmem hactive,
      hreplay.enough ban hmem hactive⟩
  have hroom : (s.firewall.leases.purge call.check.now).rows.length +
      replaySize jailFor p (s.db.bans.rows.filter (activeBan call.now)) ≤ 100000 := by
    have hpurge := Table.length_purge_le s.firewall.leases call.check.now
    have hsize := hreplay.room
    omega
  refine Tx.wp_mono (wp_replayBans hp hreplay.quick _ _ hinv.purge
    (hreplay.steady.purge hcheck) hrows hroom) ?_ fun _ _ h => h
  rintro n t ⟨hdb, hinv', -, hcovers⟩
  have hforce : ∀ ban ∈ s.db.bans.rows, activeBan call.now ban = true → ∀ ports,
      p.jails jailFor ban.1.1 = some ports → ∀ port ∈ ports,
        t.firewall.elements.alive (element (ban.1.2, port)) call.ended = true := by
    intro ban hban hactive ports hjail port hport
    have hlease := hcovers ban (List.mem_filter.mpr ⟨hban, hactive⟩) ports hjail port hport
    exact hinv'.watched.backed.alive hlease
  refine ⟨fun _ => ?_, fun _ => ⟨hdb, hinv'.later hbegan, hforce⟩⟩
  refine Tx.wp_mono (wp_request_status hinv'.ready) ?_ fun _ _ h => h
  rintro answer f ⟨rfl, -⟩
  exact ⟨hdb, (hinv'.purge).later hbegan, hforce⟩

end Sync

end Policy
end DarkXray
