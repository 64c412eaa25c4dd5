import Mathlib.Algebra.Order.Ring.Cast
import Mathlib.Algebra.Order.Ring.Rat
import DarkXray.Library.Runs
import DarkXray.Policy.Broker

/-!
# Runs of the firewall broker

Messages of any peers reach the broker, its commands may fail, and time passes.  The broker
loses track of an element where a failed read makes it believe that the element is gone, and
where the element outlives its lease.

Main results:

- Theorem {lit}`wp_dispatch`: what a message does.
- Theorem {lit}`broker_keeps_track`: what holds in every run.
- Theorem {lit}`failed_read_forgets`: a ban that is reported as released is still in force.
-/

namespace DarkXray
namespace Policy

open Library

/-! ## What the operations do -/

/-- Leases and elements are dropped; an element goes only with its lease. -/
structure Drops (s t : FirewallState) : Prop where
  ready : t.ready = s.ready
  runtimePorts : t.runtimePorts = s.runtimePorts
  leases : ∀ k v, t.leases.get? k = some v → s.leases.get? k = some v
  elements : ∀ e x, t.elements.get? e = some x → s.elements.get? e = some x
  together : ∀ k v, t.leases.get? k = some v →
    t.elements.get? (element k) = s.elements.get? (element k)

section Dropping

variable {s t u : FirewallState}

/-- Nothing is dropped. -/
theorem Drops.refl (s : FirewallState) : Drops s s :=
  ⟨rfl, rfl, fun _ _ h => h, fun _ _ h => h, fun _ _ _ => rfl⟩

/-- What is dropped in two steps is dropped. -/
theorem Drops.trans (h : Drops s t) (h' : Drops t u) : Drops s u where
  ready := h'.ready.trans h.ready
  runtimePorts := h'.runtimePorts.trans h.runtimePorts
  leases := fun k v hk => h.leases k v (h'.leases k v hk)
  elements := fun e x he => h.elements e x (h'.elements e x he)
  together := fun k v hk => (h'.together k v hk).trans (h.together k v (h'.leases k v hk))

/-- Dropped leases stay backed by the elements. -/
theorem Drops.backs (h : Drops s t) (hs : Backs element s.elements s.leases) :
    Backs element t.elements t.leases := by
  intro k v hk
  rw [h.together k v hk]
  exact hs k v (h.leases k v hk)

/-- What is not in force stays so. -/
theorem Drops.alive (h : Drops s t) {e : Element} {now : ℚ} (he : t.elements.alive e now = true) :
    s.elements.alive e now = true := by
  obtain ⟨x, hx, hlt⟩ := Table.alive_iff.mp he
  exact Table.alive_iff.mpr ⟨x, h.elements e x hx, hlt⟩

/-- Leases that have ended are dropped. -/
theorem Drops.purge (s : FirewallState) (now : ℚ) :
    Drops s { s with leases := s.leases.purge now } :=
  ⟨rfl, rfl, fun _ _ h => (Table.get?_purge_eq_some_iff.mp h).1, fun _ _ h => h, fun _ _ _ => rfl⟩

/-- One lease is dropped. -/
theorem Drops.eraseLease (s : FirewallState) (k : String × ℤ) :
    Drops s { s with leases := s.leases.erase k } := by
  refine ⟨rfl, rfl, fun k' v h => ?_, fun _ _ h => h, fun _ _ _ => rfl⟩
  rw [Table.get?_erase] at h
  split at h
  · cases h
  · exact h

/-- A lease has its own element. -/
theorem element_injective : Function.Injective element :=
  fun _ _ h => (Prod.mk.inj h).2

/-- A lease is dropped with its element. -/
theorem Drops.eraseBoth (s : FirewallState) (k : String × ℤ) :
    Drops s { s with elements := s.elements.erase (element k), leases := s.leases.erase k } := by
  refine ⟨rfl, rfl, fun k' v h => ?_, fun e x h => ?_, fun k' v h => ?_⟩
  · rw [Table.get?_erase] at h
    split at h
    · cases h
    · exact h
  · rw [Table.get?_erase] at h
    split at h
    · cases h
    · exact h
  · rw [Table.get?_erase] at h
    split at h
    · cases h
    · rename_i hne
      rw [Table.get?_erase, if_neg fun heq => hne (element_injective heq)]

/-- Everything is dropped. -/
theorem Drops.clear (s : FirewallState) :
    Drops s { s with elements := Table.empty, leases := Table.empty } := by
  refine ⟨rfl, rfl, fun k v h => ?_, fun e x h => ?_, fun k v h => ?_⟩
  · rw [Table.get?_empty] at h
    cases h
  · rw [Table.get?_empty] at h
    cases h
  · rw [Table.get?_empty] at h
    cases h

end Dropping

section Operations

variable {α : Type} {lib : IpLibrary α} {cfg : BrokerConfig} {env : Environment}
  {s : FirewallState}

/-- A script fails, or has its effect. -/
theorem wp_runScript {command : NftCommand} {effect : BrokerCall Unit}
    {q : Unit → FirewallState → Prop} {r : BrokerError → FirewallState → Prop}
    (hraise : ∀ e, r e s) (heffect : effect.wp q r s) :
    (runScript env command effect).wp q r s := by
  unfold runScript
  split
  · exact heffect
  · exact hraise .refused
  · exact hraise .process

/-- An element is not in force at the end. -/
def Gone (env : Environment) (e : Element) (t : FirewallState) : Prop :=
  t.elements.alive e env.ended = false

/-- An element that is not in force is gone at the end. -/
theorem gone_of_not_alive {e : Element} {moment : ℚ} {t : FirewallState}
    (h : t.elements.alive e moment = false) (hle : moment ≤ env.ended) : Gone env e t := by
  exact Table.not_alive_mono h hle

/-- An element that is gone stays gone. -/
theorem Drops.gone {t : FirewallState} {e : Element} (h : Drops s t) (hs : Gone env e s) :
    Gone env e t := by
  unfold Gone at hs ⊢
  rw [← Bool.not_eq_true] at hs ⊢
  exact fun halive => hs (h.alive halive)

/-- The read of an element that is in force is not refused. -/
def Readable (env : Environment) (s : FirewallState) (e : Element) : Prop :=
  s.elements.alive e env.ended = true → env.result (.getElement e) ≠ .refused

/-- An element that is readable stays readable. -/
theorem Drops.readable {t : FirewallState} {e : Element} (h : Drops s t) (hs : Readable env s e) :
    Readable env t e :=
  fun halive => hs (h.alive halive)

/-- A release drops a lease, and its element if that can be read. -/
theorem wp_release (lease : String × ℤ) :
    (release env lease).wp
      (fun _ t => Drops s t ∧ (Readable env s (element lease) → Gone env (element lease) t))
      (fun _ t => Drops s t) s := by
  unfold release getElement
  cases hresult : env.result (.getElement (element lease)) with
  | completed =>
      simp only [Tx.wp_bind, Tx.wp_read, Tx.wp_when, Tx.wp_write, Tx.wp_pure]
      refine ⟨fun _ => ?_, fun hnot => ?_⟩
      · unfold deleteElement
        refine wp_runScript (fun _ => Drops.refl s) ?_
        simp only [Tx.wp_bind, Tx.wp_read, Tx.wp_require, Tx.wp_write]
        refine ⟨fun _ => ⟨Drops.eraseBoth s lease, fun _ => ?_⟩, fun _ => Drops.refl s⟩
        unfold Gone Table.alive
        rw [Table.get?_erase, if_pos rfl]
        rfl
      · refine ⟨Drops.eraseLease s lease, fun _ => ?_⟩
        rw [Bool.not_eq_true] at hnot
        exact (Drops.eraseLease s lease).gone (gone_of_not_alive hnot (env.moment_le_ended _))
  | refused =>
      simp only [Tx.wp_bind, Tx.wp_when, Tx.wp_write, Tx.wp_pure]
      refine ⟨fun hgot => (by cases hgot), fun _ => ⟨Drops.eraseLease s lease, fun hread => ?_⟩⟩
      have hnot : ¬ s.elements.alive (element lease) env.ended = true :=
        fun halive => hread halive hresult
      exact (Drops.eraseLease s lease).gone ((Bool.not_eq_true _).mp hnot)
  | raised =>
      simp only [Tx.wp_bind, Tx.wp_raise]
      exact Drops.refl s

/-- What the loops do. -/
theorem wp_releaseAll (leases : List (String × ℤ)) (s : FirewallState) :
    (releaseAll env leases).wp
      (fun _ t => Drops s t ∧ ((∀ k ∈ leases, Readable env s (element k)) →
        ∀ k ∈ leases, Gone env (element k) t))
      (fun _ t => Drops s t) s := by
  induction leases generalizing s with
  | nil => exact ⟨Drops.refl s, fun _ _ hk => (List.not_mem_nil hk).elim⟩
  | cons lease rest ih =>
      unfold releaseAll
      rw [Tx.wp_bind]
      refine Tx.wp_mono (wp_release lease) ?_ fun _ _ h => h
      rintro got t ⟨hdrops, hgone⟩
      rw [Tx.wp_bind]
      refine Tx.wp_mono (ih t) ?_ fun _ _ h => hdrops.trans h
      rintro n u ⟨hdrops', hgone'⟩
      rw [Tx.wp_pure]
      refine ⟨hdrops.trans hdrops', fun hread k hk => ?_⟩
      rcases List.mem_cons.mp hk with rfl | hrest
      · exact hdrops'.gone (hgone (hread k List.mem_cons_self))
      · exact hgone' (fun k' hk' => hdrops.readable (hread k' (List.mem_cons_of_mem _ hk'))) k hrest

/-- A status request drops elements at most. -/
theorem wp_status : (status cfg env).wp (fun _ t => Drops s t) (fun _ t => Drops s t) s := by
  unfold status
  simp only [Tx.wp_bind, Tx.wp_read, Tx.wp_require]
  refine ⟨fun _ => ?_, fun _ => Drops.refl s⟩
  refine wp_runScript (fun _ => Drops.refl s) ?_
  simp only [Tx.wp_pure, Tx.wp_write]
  exact Drops.purge s env.now

/-- Clearing drops everything. -/
theorem wp_clear : (clear env).wp
    (fun answer t => answer = .cleared ∧ Drops s t ∧ t.elements = Table.empty)
    (fun _ t => Drops s t) s := by
  unfold clear
  rw [Tx.wp_bind]
  refine wp_runScript (fun _ => Drops.refl s) ?_
  simp only [Tx.wp_bind, Tx.wp_write, Tx.wp_pure]
  exact ⟨trivial, Drops.clear s, trivial⟩

/-- An unban drops elements of the address, and all of them if they can be read. -/
theorem wp_unban (ip : String) : (unban cfg env ip).wp
    (fun answer t => (∃ n, answer = .released n) ∧ Drops s t ∧
      ((∀ port ∈ s.runtimePorts, Readable env s (element (ip, port))) →
        ∀ port ∈ s.runtimePorts, Gone env (element (ip, port)) t))
    (fun _ t => Drops s t) s := by
  unfold unban
  simp only [Tx.wp_bind, Tx.wp_read]
  refine Tx.wp_mono (wp_releaseAll _ s) ?_ fun _ _ h => h
  rintro n t ⟨hdrops, hgone⟩
  refine Tx.wp_mono wp_status ?_ fun _ _ h => hdrops.trans h
  intro _ u hdrops'
  rw [Tx.wp_pure]
  refine ⟨⟨n, rfl⟩, hdrops.trans hdrops', fun hread port hport =>
    hdrops'.gone (hgone ?_ _ ?_)⟩
  · intro k hk
    obtain ⟨port, hport, rfl⟩ := List.mem_map.mp hk
    exact hread port hport
  · exact List.mem_map_of_mem hport

/-- The ports that a message takes away. -/
def Removed (s : FirewallState) (ports : List ℤ) (port : ℤ) : Prop :=
  port ∈ s.runtimePorts ∧ port ∉ ports

/-- New ports drop what is not among them. -/
theorem wp_setPorts (values : Arg) : (setPorts cfg env values).wp
    (fun answer t => ∃ ports u, normalizePorts values = .ok ports ∧
      answer = .ports ports cfg.protectedPorts ∧ (∀ p ∈ ports, p ∉ cfg.protectedPorts) ∧
      Drops s u ∧ t = { u with runtimePorts := ports } ∧
      ((∀ k v, s.leases.get? k = some v → Removed s ports k.2 → Readable env s (element k)) →
        ∀ k v, s.leases.get? k = some v → Removed s ports k.2 → Gone env (element k) u))
    (fun _ t => Drops s t) s := by
  unfold setPorts
  simp only [Tx.wp_bind, Tx.wp_require, Tx.wp_ofExcept, Tx.wp_read, id]
  refine ⟨fun _ => ⟨fun ports hports => ⟨fun hprotected => ?_, fun _ => Drops.refl s⟩,
    fun _ _ => Drops.refl s⟩, fun _ => Drops.refl s⟩
  refine Tx.wp_mono (wp_releaseAll _ s) ?_ fun _ _ h => h
  rintro n u ⟨hdrops, hgone⟩
  simp only [Tx.wp_write, Tx.wp_pure]
  have hkeys : ∀ k, k ∈ (s.leases.rows.map Prod.fst).filter (fun lease =>
      decide (lease.2 ∈ s.runtimePorts) && decide (lease.2 ∉ ports)) ↔
        (∃ v, s.leases.get? k = some v) ∧ Removed s ports k.2 := by
    intro k
    rw [List.mem_filter, Bool.and_eq_true, decide_eq_true_eq, decide_eq_true_eq]
    refine and_congr_left fun _ => ?_
    constructor
    · intro hk
      obtain ⟨row, hrow, rfl⟩ := List.mem_map.mp hk
      exact ⟨row.2, Table.get?_eq_some_iff.mpr hrow⟩
    · rintro ⟨v, hv⟩
      exact List.mem_map_of_mem (Table.get?_eq_some_iff.mp hv)
  refine ⟨ports, u, hports, rfl, hprotected.2, hdrops, rfl, fun hread k v hv hremoved => ?_⟩
  refine hgone (fun k' hk' => ?_) k ((hkeys k).mpr ⟨⟨v, hv⟩, hremoved⟩)
  obtain ⟨⟨v', hv'⟩, hremoved'⟩ := (hkeys k').mp hk'
  exact hread k' v' hv' hremoved'

/-- The store after a ban of some addresses with ports. -/
def banned (env : Environment) (s : FirewallState) (keys : List (String × ℤ)) (seconds : ℤ) :
    FirewallState :=
  let moment := env.moment (.addElements (keys.map element) seconds)
  { s with
    leases := (s.leases.purge env.now).putAll (env.now + seconds) keys
    elements := s.elements.refreshAll env.again moment (moment + seconds) (keys.map element) }

/-- What a ban adds. -/
structure Adds (cfg : BrokerConfig) (env : Environment) (s : FirewallState) (ip : String)
    (keys : List (String × ℤ)) (seconds : ℤ) : Prop where
  nodup : keys.Nodup
  address : ∀ k ∈ keys, k.1 = ip
  runtime : ∀ k ∈ keys, k.2 ∈ s.runtimePorts
  unprotected : ∀ k ∈ keys, k.2 ∉ cfg.protectedPorts
  ended : ∀ k ∈ keys, s.leases.alive k env.now = false
  least : 10 ≤ seconds
  most : seconds ≤ cfg.maxBanSeconds

/-- What an accepted ban does: the leases of the address and the ports that have ended are
renewed. -/
theorem wp_ban (ip : String) (ports seconds : Arg) : (ban cfg env ip ports seconds).wp
    (fun answer t => answer = .accepted ∧ ∃ values n keys, normalizePorts ports = .ok values ∧
      integerArg seconds 10 cfg.maxBanSeconds = .ok n ∧ Adds cfg env s ip keys n ∧
      (∀ k ∈ keys, k.2 ∈ values) ∧
      (∀ port ∈ values, (ip, port) ∈ keys ∨ s.leases.alive (ip, port) env.now = true) ∧
      t = banned env s keys n)
    (fun _ t => Drops s t) s := by
  unfold ban
  simp only [Tx.wp_bind, Tx.wp_require, Tx.wp_ofExcept, Tx.wp_read, Tx.wp_write, Tx.wp_when,
    Tx.wp_pure]
  refine ⟨fun _ => ⟨fun values hvalues => ⟨fun hports => ⟨fun n hn => ⟨fun _ => ?_,
    fun _ => Drops.purge s env.now⟩, fun _ _ => Drops.refl s⟩, fun _ => Drops.refl s⟩,
    fun _ _ => Drops.refl s⟩, fun _ => Drops.refl s⟩
  obtain ⟨-, hruntime, hprotected⟩ := hports
  obtain ⟨hleast, hmost⟩ := integerArg_ok hn
  have hmem : ∀ k, k ∈ (values.map fun port => (ip, port)).filter (fun lease =>
      !(s.leases.purge env.now).alive lease env.now) ↔
        k.1 = ip ∧ k.2 ∈ values ∧ s.leases.alive k env.now = false := by
    rintro ⟨ip', port⟩
    rw [List.mem_filter, Table.alive_purge, Bool.not_eq_true', List.mem_map]
    constructor
    · rintro ⟨⟨port', hport, heq⟩, hdead⟩
      obtain ⟨rfl, rfl⟩ := Prod.mk.inj heq
      exact ⟨rfl, hport, hdead⟩
    · rintro ⟨rfl, hport, hdead⟩
      exact ⟨⟨port, hport, rfl⟩, hdead⟩
  have hadds : Adds cfg env s ip ((values.map fun port => (ip, port)).filter fun lease =>
      !(s.leases.purge env.now).alive lease env.now) n := by
    refine ⟨?_, fun k hk => ((hmem k).mp hk).1, fun k hk => hruntime _ ((hmem k).mp hk).2.1,
      fun k hk => hprotected _ ((hmem k).mp hk).2.1, fun k hk => ((hmem k).mp hk).2.2, hleast,
      hmost⟩
    refine List.Nodup.filter _ ((normalizePorts_nodup hvalues).map ?_)
    exact fun _ _ h => (Prod.mk.inj h).2
  have hcovers : ∀ port ∈ values, (ip, port) ∈ (values.map fun port => (ip, port)).filter
      (fun lease => !(s.leases.purge env.now).alive lease env.now) ∨
        s.leases.alive (ip, port) env.now = true := by
    intro port hport
    by_cases halive : s.leases.alive (ip, port) env.now = true
    · exact Or.inr halive
    · exact Or.inl ((hmem (ip, port)).mpr ⟨rfl, hport, (Bool.not_eq_true _).mp halive⟩)
  refine ⟨fun _ => ?_, fun hnone => ?_⟩
  · unfold addElements
    refine wp_runScript (fun _ => Drops.purge s env.now) ?_
    simp only [Tx.wp_write]
    exact ⟨trivial, values, n, _, hvalues, hn, hadds, fun k hk => ((hmem k).mp hk).2.1, hcovers,
      rfl⟩
  · rw [not_not] at hnone
    rw [hnone] at hadds hcovers
    exact ⟨trivial, values, n, [], hvalues, hn, hadds, fun _ hk => (List.not_mem_nil hk).elim,
      hcovers, rfl⟩

/-- What a message that is answered has done. -/
inductive Handled (lib : IpLibrary α) (cfg : BrokerConfig) (env : Environment)
    (s : FirewallState) (fields : Fields) : BrokerAnswer → FirewallState → Prop
  | status {found : BrokerStatus} {t : FirewallState} :
      Drops s t → Handled lib cfg env s fields (.status found) t
  | cleared {t : FirewallState} :
      Drops s t → t.elements = Table.empty → Handled lib cfg env s fields .cleared t
  | ports {ports : List ℤ} {t : FirewallState} :
      operationOf fields = .ok .setPorts →
      normalizePorts (getArg fields "ports" (.list [])) = .ok ports →
      (∀ p ∈ ports, p ∉ cfg.protectedPorts) → Drops s t →
      ((∀ k v, s.leases.get? k = some v → Removed s ports k.2 → Readable env s (element k)) →
        ∀ k v, s.leases.get? k = some v → Removed s ports k.2 → Gone env (element k) t) →
      Handled lib cfg env s fields (.ports ports cfg.protectedPorts)
        { t with runtimePorts := ports }
  | released {n : ℕ} {ip : String} {t : FirewallState} :
      operationOf fields = .ok .unban →
      brokerIp lib cfg (getArg fields "ip" (.value .none)) = .ok ip → Drops s t →
      ((∀ port ∈ s.runtimePorts, Readable env s (element (ip, port))) →
        ∀ port ∈ s.runtimePorts, Gone env (element (ip, port)) t) →
      Handled lib cfg env s fields (.released n) t
  | banned {ip : String} {ports : List ℤ} {keys : List (String × ℤ)} {seconds : ℤ} :
      operationOf fields = .ok .ban →
      brokerIp lib cfg (getArg fields "ip" (.value .none)) = .ok ip →
      normalizePorts (getArg fields "ports" (.list [])) = .ok ports →
      Adds cfg env s ip keys seconds → (∀ k ∈ keys, k.2 ∈ ports) →
      Handled lib cfg env s fields .accepted (banned env s keys seconds)

/-- A message of another peer changes nothing. -/
theorem dispatch_unauthorized {uid : ℤ} (huid : uid ≠ cfg.allowedUid) (message : Option Fields) :
    (dispatch lib cfg env message uid) s =
      (.error (.policy "Unix peer UID is not authorized"), s) := by
  unfold dispatch Tx.require
  rw [if_neg huid]
  rfl

/-- What a message does. -/
theorem wp_dispatch (message : Option Fields) (uid : ℤ) :
    (dispatch lib cfg env message uid).wp
      (fun answer t => ∃ fields, message = some fields ∧ Handled lib cfg env s fields answer t)
      (fun _ t => Drops s t) s := by
  have hready : ∀ (call : BrokerCall BrokerAnswer) (q : BrokerAnswer → FirewallState → Prop),
      call.wp q (fun _ t => Drops s t) s →
      (do
        let ready ← Tx.read FirewallState.ready
        Tx.require (ready = true) (BrokerError.policy "Firewall broker not initialized")
        call).wp q (fun _ t => Drops s t) s := by
    intro call q hcall
    simp only [Tx.wp_bind, Tx.wp_read, Tx.wp_require]
    exact ⟨fun _ => hcall, fun _ => Drops.refl s⟩
  unfold dispatch
  simp only [Tx.wp_bind, Tx.wp_require, Tx.wp_demand, Tx.wp_ofExcept]
  refine ⟨fun _ => ⟨fun fields hmessage => ⟨fun operation hoperation => ?_,
    fun _ _ => Drops.refl s⟩, fun _ => Drops.refl s⟩, fun _ => Drops.refl s⟩
  cases operation with
  | status =>
      rw [Tx.wp_bind]
      refine Tx.wp_mono wp_status ?_ fun _ _ h => h
      intro found t hdrops
      exact ⟨fields, hmessage, Handled.status hdrops⟩
  | clear =>
      refine hready _ _ (Tx.wp_mono wp_clear ?_ fun _ _ h => h)
      rintro answer t ⟨rfl, hdrops, hempty⟩
      exact ⟨fields, hmessage, Handled.cleared hdrops hempty⟩
  | setPorts =>
      refine hready _ _ (Tx.wp_mono (wp_setPorts _) ?_ fun _ _ h => h)
      rintro answer t ⟨ports, u, hports, rfl, hprotected, hdrops, rfl, hgone⟩
      exact ⟨fields, hmessage, Handled.ports hoperation hports hprotected hdrops hgone⟩
  | unban =>
      refine hready _ _ ?_
      rw [Tx.wp_bind, Tx.wp_ofExcept]
      refine ⟨fun ip hip => ?_, fun _ _ => Drops.refl s⟩
      refine Tx.wp_mono (wp_unban ip) ?_ fun _ _ h => h
      rintro answer t ⟨⟨n, rfl⟩, hdrops, hgone⟩
      exact ⟨fields, hmessage, Handled.released hoperation hip hdrops hgone⟩
  | ban =>
      refine hready _ _ ?_
      rw [Tx.wp_bind, Tx.wp_ofExcept]
      refine ⟨fun ip hip => ?_, fun _ _ => Drops.refl s⟩
      refine Tx.wp_mono (wp_ban ip _ _) ?_ fun _ _ h => h
      rintro answer t ⟨rfl, values, seconds, keys, hvalues, -, hadds, hports, -, rfl⟩
      exact ⟨fields, hmessage, Handled.banned hoperation hip hvalues hadds hports⟩

end Operations

/-! ## Runs -/

/-- The broker with the clock that it shares with the kernel. -/
structure BrokerSystem where
  firewall : FirewallState
  clock : ℚ

/-- A message, with what surrounds it. -/
structure BrokerEvent where
  env : Environment
  message : Option Fields
  uid : ℤ

section Runs

variable {α : Type} (lib : IpLibrary α) (cfg : BrokerConfig)

/-- A message is dispatched; the clock never goes back. -/
def BrokerStep (s : BrokerSystem) (e : BrokerEvent) (t : BrokerSystem) : Prop :=
  s.clock ≤ e.env.began ∧
    t = ⟨(dispatch lib cfg e.env e.message e.uid s.firewall).2, e.env.ended⟩

/-- The broker after {lit}`bootstrap`, or before it. -/
def Booted (s : BrokerSystem) : Prop :=
  s.firewall.leases = Table.empty ∧ s.firewall.elements = Table.empty ∧
    s.firewall.runtimePorts = cfg.allowedPorts

/-- When the broker does not lose track: a message that releases elements reads those in force, and
finds leases of them if it goes by leases; no message bans again what is in force without a
lease. -/
structure Tracked (s : BrokerSystem) (e : BrokerEvent) : Prop where
  unban : ∀ fields ip, e.message = some fields → operationOf fields = .ok .unban →
    brokerIp lib cfg (getArg fields "ip" (.value .none)) = .ok ip →
    ∀ port ∈ s.firewall.runtimePorts, Readable e.env s.firewall (element (ip, port))
  setPorts : ∀ fields ports, e.message = some fields → operationOf fields = .ok .setPorts →
    normalizePorts (getArg fields "ports" (.list [])) = .ok ports →
    ∀ k, Removed s.firewall ports k.2 → Readable e.env s.firewall (element k) ∧
      (s.firewall.elements.alive (element k) e.env.ended = true →
        ∃ v, s.firewall.leases.get? k = some v)
  ban : ∀ fields ip ports, e.message = some fields → operationOf fields = .ok .ban →
    brokerIp lib cfg (getArg fields "ip" (.value .none)) = .ok ip →
    normalizePorts (getArg fields "ports" (.list [])) = .ok ports →
    ∀ port ∈ ports, s.firewall.elements.alive (element (ip, port)) e.env.now = true →
      s.firewall.leases.alive (ip, port) e.env.now = true

/-- What holds between the messages. -/
structure Watched (s : FirewallState) : Prop where
  backed : Backs element s.elements s.leases
  placed : ∀ e x, s.elements.get? e = some x → e = element e.2
  elements : ∀ e x, s.elements.get? e = some x → e.2.2 ∉ cfg.protectedPorts
  runtimePorts : ∀ p ∈ s.runtimePorts, p ∉ cfg.protectedPorts

variable {lib} {cfg}

/-- Dropping elements keeps the firewall watched. -/
theorem Drops.watched {s t : FirewallState} (h : Drops s t) (hs : Watched cfg s) :
    Watched cfg t where
  backed := h.backs hs.backed
  placed := fun e x he => hs.placed e x (h.elements e x he)
  elements := fun e x he => hs.elements e x (h.elements e x he)
  runtimePorts := fun p hp => hs.runtimePorts p (h.runtimePorts ▸ hp)

/-- Elements that are not in force at the time of the broker are not in force at that of the
command. -/
theorem dead_at_command {env : Environment} {s : FirewallState} {keys : List (String × ℤ)}
    {seconds : ℤ}
    (h : ∀ k ∈ keys, s.elements.alive (element k) env.now = false) :
    ∀ k ∈ keys, s.elements.alive (element k)
      (env.moment (.addElements (keys.map element) seconds)) = false := by
  intro k hk
  exact Table.not_alive_mono (h k hk) (env.now_le_moment _ _)

/-- What is in the sets after a ban of elements that are not in force. -/
theorem get?_banned {env : Environment} {s : FirewallState} {keys : List (String × ℤ)}
    {seconds : ℤ} (hnodup : keys.Nodup)
    (h : ∀ k ∈ keys, s.elements.alive (element k) env.now = false) (e : Element) :
    (banned env s keys seconds).elements.get? e =
      if e ∈ keys.map element then
        some (env.moment (.addElements (keys.map element) seconds) + seconds)
      else s.elements.get? e := by
  have hdead : ∀ x ∈ keys.map element, s.elements.alive x
      (env.moment (.addElements (keys.map element) seconds)) = false := by
    intro x hx
    obtain ⟨k, hk, rfl⟩ := List.mem_map.mp hx
    exact dead_at_command h k hk
  refine (Table.get?_refreshAll hdead (hnodup.map element_injective) e).trans ?_
  by_cases hmem : e ∈ keys.map element
  · rw [if_pos hmem, if_pos hmem]
  · rw [if_neg hmem, if_neg hmem]

/-- New leases keep the firewall watched. -/
theorem Adds.watched {env : Environment} {s : FirewallState} {ip : String}
    {keys : List (String × ℤ)} {seconds : ℤ} (hadds : Adds cfg env s ip keys seconds)
    (hdead : ∀ k ∈ keys, s.elements.alive (element k) env.now = false) (hs : Watched cfg s) :
    Watched cfg (banned env s keys seconds) where
  backed := by
    have hbacked : Backs element s.elements (s.leases.purge env.now) := hs.backed.purge env.now
    have hle : env.now + (seconds : ℚ) ≤
        env.moment (.addElements (keys.map element) seconds) + seconds :=
      add_le_add (env.now_le_moment _ _) le_rfl
    exact hbacked.refresh element_injective hle (dead_at_command hdead) hadds.nodup
  placed := by
    intro e x he
    rw [get?_banned hadds.nodup hdead] at he
    split at he
    · rename_i hmem
      obtain ⟨k, -, rfl⟩ := List.mem_map.mp hmem
      rfl
    · exact hs.placed e x he
  elements := by
    intro e x he
    rw [get?_banned hadds.nodup hdead] at he
    split at he
    · rename_i hmem
      obtain ⟨k, hk, rfl⟩ := List.mem_map.mp hmem
      exact hadds.unprotected k hk
    · exact hs.elements e x he
  runtimePorts := hs.runtimePorts

/-- What a message may do to the sets, and what its answer means. -/
structure Contained (lib : IpLibrary α) (cfg : BrokerConfig) (s : FirewallState) (e : BrokerEvent)
    (outcome : Except BrokerError BrokerAnswer) (t : FirewallState) : Prop where
  /-- A lease in force has its element. -/
  backed : ∀ k now, t.leases.alive k now = true → t.elements.alive (element k) now = true
  unauthorized : e.uid ≠ cfg.allowedUid → t = s
  /-- No element blocks the management. -/
  management : ∀ el x, t.elements.get? el = some x → el.2.2 ∉ cfg.protectedPorts
  /-- What is added is allowed, and ends in time. -/
  added : ∀ el x, t.elements.get? el = some x → s.elements.get? el ≠ some x →
    el.2.2 ∈ s.runtimePorts ∧ Bannable lib cfg el.2.1 ∧
      ∃ moment, e.env.began ≤ moment ∧ moment ≤ e.env.ended ∧ x ≤ moment + cfg.maxBanSeconds
  /-- An element that is in force is not extended. -/
  unextended : ∀ el x y, s.elements.get? el = some x → e.env.now < x →
    t.elements.get? el = some y → y = x
  ports : ∀ ports guarded, outcome = .ok (.ports ports guarded) → t.runtimePorts = ports ∧
    ∀ el, Removed s ports el.2.2 → Gone e.env el t
  released : ∀ n, outcome = .ok (.released n) → ∃ fields ip, e.message = some fields ∧
    brokerIp lib cfg (getArg fields "ip" (.value .none)) = .ok ip ∧
    ∀ el : Element, el.2.1 = ip → el.2.2 ∈ t.runtimePorts → Gone e.env el t
  cleared : outcome = .ok .cleared → t.elements = Table.empty

section Messages

variable {s t : FirewallState} {e : BrokerEvent} {outcome : Except BrokerError BrokerAnswer}

/-- An element is in no other set than that of its address. -/
theorem Watched.gone (h : Watched cfg t) {env : Environment} {el : Element}
    (hgone : Gone env (element el.2) t) : Gone env el t := by
  unfold Gone at hgone ⊢
  rw [← Bool.not_eq_true] at hgone ⊢
  intro halive
  obtain ⟨_, hx, -⟩ := Table.alive_iff.mp halive
  have hplaced := h.placed el _ hx
  rw [← hplaced] at hgone
  exact hgone halive

/-- A message that only drops. -/
theorem Drops.contained (h : Drops s t) (hs : Watched cfg s)
    (huid : e.uid ≠ cfg.allowedUid → t = s)
    (hports : ∀ ports guarded, outcome = .ok (.ports ports guarded) → t.runtimePorts = ports ∧
      ∀ el, Removed s ports el.2.2 → Gone e.env el t)
    (hreleased : ∀ n, outcome = .ok (.released n) → ∃ fields ip, e.message = some fields ∧
      brokerIp lib cfg (getArg fields "ip" (.value .none)) = .ok ip ∧
      ∀ el : Element, el.2.1 = ip → el.2.2 ∈ t.runtimePorts → Gone e.env el t)
    (hcleared : outcome = .ok .cleared → t.elements = Table.empty) :
    Contained lib cfg s e outcome t where
  backed := fun _ _ hk => (h.watched hs).backed.alive hk
  unauthorized := huid
  management := (h.watched hs).elements
  added := fun _ _ ht hs' => (hs' (h.elements _ _ ht)).elim
  unextended := fun _ _ _ hx _ hy => Option.some.inj ((h.elements _ _ hy).symm.trans hx)
  ports := hports
  released := hreleased
  cleared := hcleared

/-- A message that releases nothing by its answer. -/
theorem Drops.contained_of_quiet (h : Drops s t) (hs : Watched cfg s)
    (huid : e.uid ≠ cfg.allowedUid → t = s)
    (hports : ∀ ports guarded, outcome ≠ .ok (.ports ports guarded))
    (hreleased : ∀ n, outcome ≠ .ok (.released n)) (hcleared : outcome ≠ .ok .cleared) :
    Contained lib cfg s e outcome t :=
  h.contained hs huid (fun ports guarded heq => (hports ports guarded heq).elim)
    (fun n heq => (hreleased n heq).elim) fun heq => (hcleared heq).elim

/-- What a message with its condition does. -/
theorem Handled.contained {fields : Fields} {answer : BrokerAnswer} {clock : ℚ}
    (h : Handled lib cfg e.env s fields answer t) (hmessage : e.message = some fields)
    (huid : e.uid = cfg.allowedUid) (hs : Watched cfg s) (htracked : Tracked lib cfg ⟨s, clock⟩ e) :
    Watched cfg t ∧ Contained lib cfg s e (.ok answer) t := by
  have hun : ∀ u : FirewallState, e.uid ≠ cfg.allowedUid → u = s := fun _ hne => (hne huid).elim
  cases h with
  | status hdrops =>
      refine ⟨hdrops.watched hs, hdrops.contained_of_quiet hs (hun t) ?_ ?_ ?_⟩ <;> simp
  | cleared hdrops hempty =>
      refine ⟨hdrops.watched hs, hdrops.contained hs (hun t) ?_ ?_ fun _ => hempty⟩ <;> simp
  | released hoperation hip hdrops hgone =>
      refine ⟨hdrops.watched hs, hdrops.contained hs (hun t) (by simp) ?_ (by simp)⟩
      intro n _
      refine ⟨fields, _, hmessage, hip, ?_⟩
      rintro ⟨set, ip, port⟩ rfl hport
      rw [hdrops.runtimePorts] at hport
      refine (hdrops.watched hs).gone (hgone (fun port' hport' => ?_) port hport)
      exact htracked.unban fields ip hmessage hoperation hip port' hport'
  | @ports ports u hoperation hports hprotected hdrops hgone =>
      have hu := hdrops.watched hs
      have hquiet : Contained lib cfg s e (.ok .accepted) u :=
        hdrops.contained_of_quiet hs (hun u) (by simp) (by simp) (by simp)
      refine ⟨⟨hu.backed, hu.placed, hu.elements, hprotected⟩, {
        backed := hquiet.backed
        unauthorized := hun _
        management := hquiet.management
        added := hquiet.added
        unextended := hquiet.unextended
        ports := ?_
        released := by simp
        cleared := by simp }⟩
      intro ports' guarded heq
      simp only [Except.ok.injEq, BrokerAnswer.ports.injEq] at heq
      obtain ⟨rfl, -⟩ := heq
      refine ⟨rfl, fun el hremoved => ?_⟩
      have htracked' := htracked.setPorts fields ports hmessage hoperation hports
      have hgone' : Gone e.env el u := by
        refine hu.gone ?_
        by_cases halive : s.elements.alive (element el.2) e.env.ended = true
        · obtain ⟨v, hv⟩ := (htracked' el.2 hremoved).2 halive
          exact hgone (fun k _ _ hk => (htracked' k hk).1) el.2 v hv hremoved
        · exact hdrops.gone ((Bool.not_eq_true _).mp halive)
      exact hgone'
  | @banned ip ports keys seconds hoperation hip hports hadds hmem =>
      have hdead : ∀ k ∈ keys, s.elements.alive (element k) e.env.now = false := by
        rintro ⟨ip', port⟩ hk
        obtain rfl := hadds.address _ hk
        rw [← Bool.not_eq_true]
        intro halive
        have hlease := htracked.ban fields ip' ports hmessage hoperation hip hports port
          (hmem _ hk) halive
        have hended := hadds.ended _ hk
        exact Bool.false_ne_true (hended.symm.trans hlease)
      have hbanned := hadds.watched hdead hs
      refine ⟨hbanned, {
        backed := fun _ _ hk => hbanned.backed.alive hk
        unauthorized := hun _
        management := hbanned.elements
        added := ?_
        unextended := ?_
        ports := by simp
        released := by simp
        cleared := by simp }⟩
      · intro el x hx hnew
        rw [get?_banned hadds.nodup hdead] at hx
        split at hx
        · rename_i hmem'
          obtain ⟨k, hk, rfl⟩ := List.mem_map.mp hmem'
          obtain rfl := Option.some.inj hx
          refine ⟨hadds.runtime k hk, ?_, e.env.moment (.addElements (keys.map element) seconds),
            e.env.began_le_moment _, e.env.moment_le_ended _, ?_⟩
          · rw [show (element k).2.1 = ip from hadds.address k hk]
            exact (brokerIp_ok hip).2
          · exact add_le_add le_rfl (Int.cast_le.mpr hadds.most)
        · exact (hnew hx).elim
      · intro el x y hx hlt hy
        rw [get?_banned hadds.nodup hdead] at hy
        split at hy
        · rename_i hmem'
          obtain ⟨k, hk, rfl⟩ := List.mem_map.mp hmem'
          have halive := Table.alive_iff.mpr ⟨x, hx, hlt⟩
          exact (Bool.false_ne_true ((hdead k hk).symm.trans halive)).elim
        · exact Option.some.inj (hy.symm.trans hx)

/-- What a delivered message with its condition does. -/
theorem contained_dispatch {clock : ℚ} (hs : Watched cfg s)
    (htracked : Tracked lib cfg ⟨s, clock⟩ e) :
    Watched cfg (dispatch lib cfg e.env e.message e.uid s).2 ∧
      Contained lib cfg s e (dispatch lib cfg e.env e.message e.uid s).1
        (dispatch lib cfg e.env e.message e.uid s).2 := by
  by_cases huid : e.uid = cfg.allowedUid
  · have hwp : (dispatch lib cfg e.env e.message e.uid).wp (fun answer t =>
        ∃ fields, e.message = some fields ∧ Handled lib cfg e.env s fields answer t)
        (fun _ t => Drops s t) s := wp_dispatch e.message e.uid
    rcases hrun : dispatch lib cfg e.env e.message e.uid s with ⟨_ | answer, t⟩
    · have hdrops := Tx.wp_error hwp hrun
      exact ⟨hdrops.watched hs, hdrops.contained_of_quiet hs (fun hne => (hne huid).elim)
        (by simp) (by simp) (by simp)⟩
    · obtain ⟨fields, hmessage, hhandled⟩ := Tx.wp_ok hwp hrun
      exact hhandled.contained hmessage huid hs htracked
  · rw [dispatch_unauthorized huid]
    exact ⟨hs, (Drops.refl s).contained_of_quiet hs (fun _ => rfl) (by simp) (by simp) (by simp)⟩

end Messages

/-- The firewall is watched from the start. -/
theorem Booted.watched {value : Option Fields} {s : BrokerSystem}
    (hcfg : BrokerConfig.fromDict lib value = .ok cfg) (h : Booted cfg s) :
    Watched cfg s.firewall := by
  obtain ⟨hleases, helements, hports⟩ := h
  refine ⟨?_, ?_, ?_, ?_⟩
  · rw [hleases]
    exact Backs.empty
  · intro e x he
    rw [helements, Table.get?_empty] at he
    cases he
  · intro e x he
    rw [helements, Table.get?_empty] at he
    cases he
  · rw [hports]
    exact (fromDict_ok hcfg).2.1

/-- The broker does not lose track: in every run of messages that meet the condition, and in the
step of the next one, what is in the sets is allowed, leases have their elements, nothing in force
is extended, and what is reported as released is released. -/
theorem broker_keeps_track {value : Option Fields} {start s t : BrokerSystem} {e : BrokerEvent}
    {es : List BrokerEvent} (hcfg : BrokerConfig.fromDict lib value = .ok cfg)
    (hstart : Booted cfg start)
    (hrun : Run (Guarded (BrokerStep lib cfg) (Tracked lib cfg)) start es s)
    (hstep : Guarded (BrokerStep lib cfg) (Tracked lib cfg) s e t) :
    22 ∈ cfg.protectedPorts ∧
      Contained lib cfg s.firewall e (dispatch lib cfg e.env e.message e.uid s.firewall).1
        t.firewall := by
  have hs : Watched cfg s.firewall := by
    apply hrun.invariant
    · exact hstart.watched hcfg
    · rintro a e b ha ⟨⟨-, rfl⟩, htracked⟩
      exact (contained_dispatch ha htracked).1
  obtain ⟨⟨-, rfl⟩, htracked⟩ := hstep
  exact ⟨(fromDict_ok hcfg).1, (contained_dispatch hs htracked).2⟩

/-! ### One ban -/

/-- An address library of two routable addresses. -/
def publicIps : IpLibrary String where
  address := fun text => if text ∈ ["8.8.8.8", "8.8.4.4"] then some text else none
  ipv4Mapped := fun _ => none
  compressed := id
  isGlobal := fun _ => true
  isMulticast := fun _ => false
  network := fun _ => none
  within := fun _ _ => some false

/-- A configuration with one data port. -/
def oneValue : Fields :=
  [("allowed_uid", .value (.int 1000)), ("allowed_ports", .list [.int 443]),
    ("direct_source_verified", .value (.bool true))]

/-- What is read from it. -/
def oneConfig : BrokerConfig where
  allowedUid := 1000
  allowedPorts := [443]
  protectedPorts := [22, 2087, 10085]
  socketPath := "/run/dark-xray-guard/control.sock"
  directSourceVerified := true
  maxBanSeconds := 3600
  exemptIps := []
  nftBinary := "/usr/sbin/nft"
  allowRuntimePortUpdates := false

/-- Everything happens at once, and reads end as given. -/
def instant (now : ℚ) (read : NftResult) : Environment where
  began := now
  now := now
  ended := now
  moment := fun _ => now
  result := fun command =>
    match command with
    | .getElement _ => read
    | _ => .completed
  again := fun _ new => new
  began_le_now := le_rfl
  now_le_ended := le_rfl
  began_le_moment := fun _ => le_rfl
  moment_le_ended := fun _ => le_rfl
  now_le_moment := fun _ _ => le_rfl

/-- The broker of the configuration after its start. -/
def oneStart : BrokerSystem :=
  ⟨⟨Table.empty, [443], true, Table.empty⟩, 0⟩

/-- An hour's ban. -/
def banOne : BrokerEvent where
  env := instant 0 .completed
  message := some [("operation", .value (.str "ban")), ("ip", .value (.str "8.8.8.8")),
    ("ports", .list [.int 443]), ("seconds", .value (.int 3600))]
  uid := 1000

/-- Its release after a minute. -/
def unbanOne (read : NftResult) : BrokerEvent where
  env := instant 60 read
  message := some [("operation", .value (.str "unban")), ("ip", .value (.str "8.8.8.8"))]
  uid := 1000

/-- The state that a message leads to. -/
def oneAfter (s : BrokerSystem) (e : BrokerEvent) : BrokerSystem :=
  ⟨(dispatch publicIps oneConfig e.env e.message e.uid s.firewall).2, e.env.ended⟩

/-- The settings are accepted. -/
theorem fromDict_oneValue : BrokerConfig.fromDict publicIps (some oneValue) = .ok oneConfig := by
  decide +kernel

/-- The broker has started. -/
theorem booted_oneStart : Booted oneConfig oneStart :=
  ⟨rfl, rfl, rfl⟩

/-- The ban is a step. -/
theorem step_banOne : BrokerStep publicIps oneConfig oneStart banOne (oneAfter oneStart banOne) :=
  ⟨le_rfl, rfl⟩

/-- The unban is a step. -/
theorem step_unbanOne (read : NftResult) : BrokerStep publicIps oneConfig (oneAfter oneStart banOne)
    (unbanOne read) (oneAfter (oneAfter oneStart banOne) (unbanOne read)) :=
  ⟨show (0 : ℚ) ≤ 60 by decide, rfl⟩

/-- A ban of what is not in the sets. -/
theorem tracked_banOne : Tracked publicIps oneConfig oneStart banOne where
  unban := by
    intro fields ip hmessage hoperation
    obtain rfl := Option.some.inj hmessage
    cases hoperation
  setPorts := by
    intro fields ports hmessage hoperation
    obtain rfl := Option.some.inj hmessage
    cases hoperation
  ban := by
    intro fields ip ports _ _ _ _ port _ halive
    obtain ⟨x, hx, -⟩ := Table.alive_iff.mp halive
    rw [show oneStart.firewall.elements = Table.empty from rfl, Table.get?_empty] at hx
    cases hx

/-- A release that can read. -/
theorem tracked_unbanOne :
    Tracked publicIps oneConfig (oneAfter oneStart banOne) (unbanOne .completed) where
  unban := by
    intro fields ip _ _ _ port _ _ hrefused
    cases hrefused
  setPorts := by
    intro fields ports hmessage hoperation
    obtain rfl := Option.some.inj hmessage
    cases hoperation
  ban := by
    intro fields ip ports hmessage hoperation
    obtain rfl := Option.some.inj hmessage
    cases hoperation

/-- The unban after the ban is contained. -/
theorem broker_keeps_track_released : 22 ∈ oneConfig.protectedPorts ∧
    Contained publicIps oneConfig (oneAfter oneStart banOne).firewall (unbanOne .completed)
      (.ok (.released 1)) (oneAfter (oneAfter oneStart banOne) (unbanOne .completed)).firewall := by
  have hrun : Run (Guarded (BrokerStep publicIps oneConfig) (Tracked publicIps oneConfig))
      oneStart [banOne] (oneAfter oneStart banOne) := Run.single ⟨step_banOne, tracked_banOne⟩
  have houtcome : (dispatch publicIps oneConfig (unbanOne .completed).env
      (unbanOne .completed).message (unbanOne .completed).uid
      (oneAfter oneStart banOne).firewall).1 = .ok (.released 1) := by decide +kernel
  have hkeeps := broker_keeps_track fromDict_oneValue booted_oneStart hrun
    ⟨step_unbanOne .completed, tracked_unbanOne⟩
  rw [houtcome] at hkeeps
  exact hkeeps

/-- A ban is reported as released, and its lease is gone, but it stays in force: the read of its
element was refused, which the broker takes for an element that is not there. -/
theorem failed_read_forgets :
    BrokerConfig.fromDict publicIps (some oneValue) = .ok oneConfig ∧ Booted oneConfig oneStart ∧
      ∃ s t : BrokerSystem, Run (BrokerStep publicIps oneConfig) oneStart [banOne] s ∧
      BrokerStep publicIps oneConfig s (unbanOne .refused) t ∧
      (dispatch publicIps oneConfig (unbanOne .refused).env (unbanOne .refused).message
        (unbanOne .refused).uid s.firewall).1 = .ok (.released 0) ∧
      443 ∈ t.firewall.runtimePorts ∧ t.firewall.leases.get? ("8.8.8.8", 443) = none ∧
      t.firewall.elements.alive (element ("8.8.8.8", 443)) t.clock = true :=
  ⟨fromDict_oneValue, booted_oneStart, oneAfter oneStart banOne,
    oneAfter (oneAfter oneStart banOne) (unbanOne .refused), Run.single step_banOne,
    step_unbanOne .refused, by decide +kernel, by decide +kernel, by decide +kernel,
    by decide +kernel⟩

end Runs

end Policy
end DarkXray
