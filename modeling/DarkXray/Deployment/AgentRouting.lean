import Mathlib.Data.List.Pairwise
import DarkXray.Deployment.RouteTargets

/-!
# What an Agent makes of the routing of the Hub

The engine of the Agent compiles the routing of its payload once more: it drops the rules
that are marked as those of the Traffic Matrix and compiles its own policies, of which it has
none.  A policy of the Hub is therefore enforced exactly if the routes of the Node lead where it
says, or no route takes the connection and the stored rules do.

Main results:

- Theorem {lit}`payload_rules`: the rules of a payload are those of routes, those of the
  Traffic Matrix and the stored ones, in this order.
- Theorem {lit}`agent_rules`: the rules of the Agent are the same without the middle part.
- Theorem {lit}`node_routes_iff`: when the Agent routes as the payload and the policies say.
- Theorem {lit}`policy_dropped`: a policy that no Agent enforces.
-/

namespace DarkXray
namespace Deployment

open Library Core Nodes

/-! ## The rules of a payload -/

section Rules

variable {py : Builtins} {crypto : Crypto} {cfg : Config} {h : Hub} {nodeId : String}
  {p : NodePayload}

/-- All outbounds are objects. -/
def AllDicts (outbounds : List Doc) : Prop :=
  ∀ out ∈ outbounds, out.isDict = true

/-- Dictionaries together are dictionaries. -/
theorem AllDicts.append {outbounds outbounds' : List Doc} (h : AllDicts outbounds)
    (h' : AllDicts outbounds') : AllDicts (outbounds ++ outbounds') := by
  intro out hout
  rcases List.mem_append.mp hout with hleft | hright
  · exact h out hleft
  · exact h' out hright

/-- One dictionary. -/
theorem allDicts_singleton {out : Doc} (h : out.isDict = true) : AllDicts [out] := by
  intro out' hout
  obtain rfl := List.mem_singleton.mp hout
  exact h

/-- The runtime outbounds are dictionaries. -/
theorem runtimeOutbounds_allDicts (scope : String) : AllDicts (h.runtimeOutbounds scope) := by
  have hbase : AllDicts (h.outbounds.filter Doc.isDict) := by
    intro out hout
    exact (List.mem_filter.mp hout).2
  unfold Hub.runtimeOutbounds
  cases hwarp : (h.warps scope).filter Doc.isDict with
  | none => exact hbase
  | some warp =>
      have hdict : warp.isDict = true := by
        rw [Option.filter_eq_some_iff] at hwarp
        exact hwarp.2
      refine AllDicts.append ?_ (allDicts_singleton (by rw [Doc.isDict_set, hdict]))
      intro out hout
      exact hbase out (List.mem_filter.mp hout).1

/-- What a route adds are dictionaries. -/
theorem routePart_allDicts {blocked rules : List Doc} {r : Route × RelayRow} {part : Added}
    (hpart : routePart crypto h nodeId blocked rules r = .ok part) :
    AllDicts part.outbounds := by
  have hempty : AllDicts [] := by
    intro out hout
    cases hout
  unfold routePart at hpart
  obtain ⟨exit, hexit, hpart⟩ := except_bind_ok_iff.mp hpart
  obtain ⟨ingress, hingress, hpart⟩ := except_bind_ok_iff.mp hpart
  rw [except_pure_ok_iff] at hpart
  subst hpart
  unfold addedWhen at hexit hingress
  apply AllDicts.append
  · split at hexit
    · unfold exitPart at hexit
      dsimp only at hexit
      split at hexit
      · cases hexit
        exact hempty
      · obtain ⟨_, -, hexit⟩ := except_bind_ok_iff.mp hexit
        cases hexit
        exact allDicts_singleton rfl
    · cases hexit
      exact hempty
  · split at hingress
    · unfold ingressPart at hingress
      split at hingress
      · cases hingress
        exact hempty
      · obtain ⟨_, -, hingress⟩ := except_bind_ok_iff.mp hingress
        cases hingress
        apply allDicts_singleton
        unfold ingressOutbound
        dsimp only
        split <;> rfl
    · cases hingress
      exact hempty

/-- What the exit routes add are dictionaries. -/
theorem compileRelays_allDicts {outbounds rules : List Doc} {out : List Doc × List Doc}
    (houtbounds : AllDicts outbounds)
    (hout : compileRelays crypto h nodeId outbounds rules = .ok out) : AllDicts out.1 := by
  obtain ⟨parts, hparts, hadded, -⟩ := compileRelays_ok hout
  rw [hadded]
  apply houtbounds.append
  intro out hmem
  obtain ⟨part, hpart, hmem⟩ := List.mem_flatMap.mp hmem
  obtain ⟨r, -, hr⟩ := exists_of_mem_mapM (except_mapM_ok_iff.mpr hparts) hpart
  exact routePart_allDicts hr out hmem

/-- The parts of a payload that decide about routing. -/
theorem nodePayload_ok (hp : h.nodePayload py crypto cfg nodeId = .ok p) :
    h.routing.isDict = true ∧ ∃ bundles relayed d,
      compileRelays crypto h nodeId (h.runtimeOutbounds ("node:" ++ nodeId))
        (h.nodeRules py crypto nodeId) = .ok relayed ∧
      h.enrichSwaps cfg nodeId ⟨bundles, relayed.1, relayed.2⟩ = .ok d ∧
      p.outbounds = d.outbounds ∧ p.routing.isDict = true ∧ p.routing.itemsAt "rules" = d.rules := by
  unfold Hub.nodePayload at hp
  simp only [except_bind_ok_iff, except_pure_ok_iff, ensure_ok_iff] at hp
  obtain ⟨bundles, -, _, hdict, relayed, hrelayed, d, hd, rfl⟩ := hp
  have hrouting : (h.routingForScope py (crypto.digest 16) ("node:" ++ nodeId) h.routing).isDict =
      true := by
    rw [MatrixStore.routingForScope, Doc.isDict_set, hdict]
  rw [MatrixStore.routingForScope, Doc.itemsAt_set hdict] at hrelayed
  refine ⟨hdict, bundles, relayed, d, hrelayed, hd, rfl, ?_, Doc.itemsAt_set hrouting _ _⟩
  rw [Doc.isDict_set, hrouting]

/-- The outbounds of a payload are objects, and those that the tables of the Hub say. -/
theorem payload_outbounds (hp : h.nodePayload py crypto cfg nodeId = .ok p) :
    AllDicts p.outbounds ∧ p.outbounds.map outboundTagOf = h.nodeOutbounds crypto nodeId := by
  obtain ⟨-, bundles, relayed, d, hrelayed, hd, houtbounds, -, -⟩ := nodePayload_ok hp
  have hswaps := (enrichSwaps_ok hd).2
  dsimp only at hswaps
  rw [houtbounds, hswaps]
  constructor
  · refine (compileRelays_allDicts (runtimeOutbounds_allDicts _) hrelayed).append ?_
    intro out hout
    obtain ⟨r, -, rfl⟩ := List.mem_map.mp hout
    rfl
  · rw [List.map_append, compileRelays_outbounds hrelayed, List.map_map, List.append_assoc]
    rfl

/-- The rules of a payload are those of routes, those of the Traffic Matrix and the stored
ones. -/
theorem payload_rules (hp : h.nodePayload py crypto cfg nodeId = .ok p) :
    ∃ front, p.routing.itemsAt "rules" = front ++ h.nodeRules py crypto nodeId ∧ Unmarked front ∧
      ∀ primary c, decision (ruleCovers primary c) ruleTarget front =
        h.routeTarget py crypto nodeId primary c := by
  obtain ⟨-, bundles, relayed, d, hrelayed, hd, -, -, hrules⟩ := nodePayload_ok hp
  obtain ⟨relays, hrelays, hunmarked, hdecides⟩ := compileRelays_front hrelayed
  have hswaps := (enrichSwaps_ok hd).1
  dsimp only at hswaps
  refine ⟨_, ?_, (swapRules_unmarked (h.nodeSwaps nodeId).reverse).append hunmarked,
    fun primary c => ?_⟩
  · rw [hrules, hswaps, hrelays, List.append_assoc]
  · rw [decision_append, decision_swapRules, hdecides, Hub.routeTarget]

end Rules

/-! ## The rules of the Agent -/

section Agent

variable {py : Builtins} {crypto : Crypto} {cfg : Config} {h : Hub} {nodeId : String}
  {p : NodePayload} {a : AgentConfig}

/-- The rules of the Agent are those of the payload that are not marked, extended to the tunnel
listeners. -/
theorem agent_rules (hdict : p.routing.isDict = true)
    (ha : p.agentConfig py crypto nodeId = some a) :
    a.routing.itemsAt "rules" =
      (baseRules p.routing).map (expandRule (shadowTags a.parts)) := by
  unfold NodePayload.agentConfig at ha
  obtain ⟨s, hs, ha⟩ := Option.bind_eq_some_iff.mp ha
  obtain ⟨parts, hparts, ha⟩ := Option.bind_eq_some_iff.mp ha
  cases ha
  unfold NodePayload.install at hs
  split at hs
  · cases hs
    have hnone : ∀ s : MatrixStore, s.matrix = Table.empty →
        s.matrixRules py (crypto.digest 16) "hub" = [] := by
      rintro s hempty
      rw [MatrixStore.matrixRules, MatrixStore.matrixRows, hempty]
      rfl
    dsimp only [MatrixStore.buildRouting, MatrixStore.routingForScope]
    rw [hnone _ rfl, List.nil_append, Doc.itemsAt_set (by rw [Doc.isDict_set, hdict]), Doc.itemsAt_set hdict]
  · cases hs

/-- The Agent has the outbounds of the payload. -/
theorem agent_outbounds (hdicts : AllDicts p.outbounds)
    (ha : p.agentConfig py crypto nodeId = some a) : a.outbounds = p.outbounds := by
  unfold NodePayload.agentConfig at ha
  obtain ⟨s, hs, ha⟩ := Option.bind_eq_some_iff.mp ha
  obtain ⟨parts, hparts, ha⟩ := Option.bind_eq_some_iff.mp ha
  cases ha
  unfold NodePayload.install at hs
  split at hs
  · cases hs
    exact List.filter_eq_self.mpr hdicts
  · cases hs

/-! ## Decisions -/

/-- A connection arrives at a primary listener, or at the tunnel listener of the inbound with
the given primary tag. -/
def AgentConfig.Arrives (a : AgentConfig) (tag : String) (primary : Option String) : Prop :=
  ∃ part ∈ a.parts, (tag = part.1.tag ∧ primary = none) ∨
    ∃ shadow, part.2 = some shadow ∧ tag = shadow.tag ∧ primary = some part.1.tag

/-- The first outbound takes the connections about which no rule decides. -/
def defaultTarget (outbounds : List Doc) : Target :=
  (outbounds.head?).elim .none fun out => .outbound (outboundTagOf out)

/-- Where the Agent sends a connection. -/
def AgentConfig.target (a : AgentConfig) (c : Connection) : Target :=
  decideOr (ruleHolds c) ruleTarget (defaultTarget a.outbounds) (a.routing.itemsAt "rules")

/-- Where the payload sends a connection, when a rule that is not marked and names an inbound
also covers its tunnel listener. -/
def NodePayload.target (p : NodePayload) (primary : Option String) (c : Connection) : Target :=
  decideOr (ruleCovers primary c) ruleTarget (defaultTarget p.outbounds)
    (p.routing.itemsAt "rules")

/-- Where the stored rules of the Hub send a connection on a Node. -/
def Hub.storedTarget (crypto : Crypto) (h : Hub) (nodeId : String) (primary : Option String)
    (c : Connection) : Target :=
  decideOr (ruleCovers primary c) ruleTarget
    ((h.nodeOutbounds crypto nodeId).head?.elim .none .outbound) (baseRules h.routing)

/-- What the policies of the Node say about a connection is done without them: the routes lead
there, or no route takes the connection and the stored rules lead there. -/
def Hub.Redundant (py : Builtins) (crypto : Crypto) (h : Hub) (nodeId : String)
    (primary : Option String) (c : Connection) : Prop :=
  ∀ target, h.policyTarget py ("node:" ++ nodeId) c = some target →
    h.routeTarget py crypto nodeId primary c = some target ∨
      (h.routeTarget py crypto nodeId primary c = none ∧
        h.storedTarget crypto nodeId primary c = target)

/-- The listener of a connection is the tunnel listener of the inbound that it belongs to, and
of no other one. -/
theorem AgentConfig.Arrives.shadows {tag : String} {primary : Option String}
    (harrives : a.Arrives tag primary) (hdistinct : ((listeners a.parts).map Listener.tag).Nodup)
    (q : String) : (q, tag) ∈ shadowTags a.parts ↔ primary = some q := by
  have hflat : (listeners a.parts).map Listener.tag =
      a.parts.flatMap fun part => part.1.tag :: (part.2.map Listener.tag).toList := by
    unfold listeners
    rw [List.map_flatMap]
    refine List.flatMap_congr fun part _ => ?_
    cases part.2 <;> rfl
  rw [hflat, List.nodup_flatMap] at hdistinct
  obtain ⟨hparts, hapart⟩ := hdistinct
  -- two parts that share a tag are the same part
  have hsame : ∀ part ∈ a.parts, ∀ part' ∈ a.parts,
      tag ∈ part.1.tag :: (part.2.map Listener.tag).toList →
        tag ∈ part'.1.tag :: (part'.2.map Listener.tag).toList → part = part' := by
    intro part hpart part' hpart' hmem hmem'
    by_contra hne
    have hsymm : Std.Symm (Function.onFun List.Disjoint fun part : Listener × Option Listener =>
        part.1.tag :: (part.2.map Listener.tag).toList) := ⟨fun _ _ h _ hb ha => h ha hb⟩
    exact hapart.forall hpart hpart' hne hmem hmem'
  have hshadow : ∀ q, (q, tag) ∈ shadowTags a.parts ↔
      ∃ part ∈ a.parts, ∃ shadow, part.2 = some shadow ∧ part.1.tag = q ∧ shadow.tag = tag := by
    intro q
    simp [shadowTags, List.mem_filterMap]
  rw [hshadow]
  obtain ⟨part', hpart', hprimary | ⟨shadow', hshadow', htag', hprimary⟩⟩ := harrives
  · constructor
    · rintro ⟨part, hpart, shadow, hsome, -, htag⟩
      obtain rfl := hsame part hpart part' hpart' (by simp [hsome, htag]) (by simp [hprimary.1])
      have hnodup := hparts part hpart
      rw [hsome] at hnodup
      simp [htag, hprimary.1] at hnodup
    · intro hsome
      rw [hprimary.2] at hsome
      cases hsome
  · rw [hprimary, Option.some.injEq]
    constructor
    · rintro ⟨part, hpart, shadow, hsome, hq, htag⟩
      obtain rfl := hsame part hpart part' hpart' (by simp [hsome, htag]) (by simp [hshadow', htag'])
      exact hq
    · intro hq
      exact ⟨part', hpart', shadow', hshadow', hq, htag'.symm⟩

/-- The rules of the Traffic Matrix are marked, and no others of these. -/
theorem matrixRules_marked {rule : Doc}
    (hrule : rule ∈ h.matrixRules py (crypto.digest 16) ("node:" ++ nodeId)) :
    isMatrixRule rule = true := by
  obtain ⟨row, -, hrow⟩ := List.mem_flatMap.mp hrule
  unfold MatrixStore.rowRules at hrow
  cases hinbound : h.inbounds.get? row.1.2.1 with
  | none =>
      rw [hinbound] at hrow
      cases hrow
  | some inbound =>
      rw [hinbound] at hrow
      dsimp only at hrow
      split at hrow
      · exact isMatrixRule_compileRules hrow
      · cases hrow

/-- The Agent keeps the rules of the payload that are not marked. -/
theorem baseRules_payload {front : List Doc}
    (hrules : p.routing.itemsAt "rules" = front ++ h.nodeRules py crypto nodeId)
    (hfront : Unmarked front) : baseRules p.routing = front ++ baseRules h.routing := by
  have hkept : ∀ rules : List Doc, Unmarked rules →
      rules.filter (fun rule => !isMatrixRule rule) = rules := by
    intro rules hunmarked
    rw [List.filter_eq_self]
    intro rule hrule
    rw [hunmarked rule hrule]
    rfl
  have hdropped : (h.matrixRules py (crypto.digest 16) ("node:" ++ nodeId)).filter
      (fun rule => !isMatrixRule rule) = [] := by
    rw [List.filter_eq_nil_iff]
    intro rule hrule
    rw [matrixRules_marked hrule]
    decide
  rw [baseRules, hrules, Hub.nodeRules, List.filter_append, List.filter_append, hkept _ hfront,
    hdropped, List.nil_append, hkept _ (baseRules_unmarked _)]

/-- The Agent sends a connection where the payload does, and where the policies of the Node say,
exactly if these policies are redundant for it. -/
theorem node_routes_iff {xray : AgentConfig → Bool} {c : Connection} {primary : Option String}
    (hp : h.nodePayload py crypto cfg nodeId = .ok p)
    (ha : p.agentConfig py crypto nodeId = some a)
    (hxray : ∀ a, xray a = true → ((listeners a.parts).map Listener.tag).Nodup)
    (haccepted : xray a = true) (harrives : a.Arrives c.inboundTag primary) :
    (a.target c = p.target primary c ∧
      ∀ target, h.policyTarget py ("node:" ++ nodeId) c = some target → a.target c = target) ↔
      h.Redundant py crypto nodeId primary c := by
  obtain ⟨front, hrules, hunmarked, hfront⟩ := payload_rules hp
  obtain ⟨hdicts, houtbounds⟩ := payload_outbounds hp
  obtain ⟨-, -, -, -, -, -, -, hrouting, -⟩ := nodePayload_ok hp
  have hpolicies : decision (ruleCovers primary c) ruleTarget
      (h.matrixRules py (crypto.digest 16) ("node:" ++ nodeId)) =
        h.policyTarget py ("node:" ++ nodeId) c := by
    have hplain : decision (ruleHolds c) ruleTarget
        (h.matrixRules py (crypto.digest 16) ("node:" ++ nodeId)) =
          h.policyTarget py ("node:" ++ nodeId) c := decision_matrixRules
    rw [← hplain]
    refine decision_congr_left fun rule hrule => ?_
    simp [ruleCovers, ruleHolds, matrixRules_marked hrule]
  have hagent : decision (ruleHolds c) ruleTarget (a.routing.itemsAt "rules") =
      decision (ruleCovers primary c) ruleTarget (front ++ baseRules h.routing) := by
    rw [agent_rules hrouting ha, baseRules_payload hrules hunmarked]
    apply decision_congr
    · exact fun rule _ => holds_expandRule (harrives.shadows (hxray a haccepted))
    · exact fun rule _ => ruleTarget_expandRule
  have hdefault : defaultTarget p.outbounds =
      (h.nodeOutbounds crypto nodeId).head?.elim .none .outbound := by
    rw [← houtbounds, defaultTarget]
    cases p.outbounds <;> rfl
  unfold AgentConfig.target NodePayload.target Hub.Redundant Hub.storedTarget
  rw [decideOr, hagent, agent_outbounds hdicts ha, hrules, Hub.nodeRules, ← hdefault, ← hfront,
    ← hpolicies, ← List.append_assoc]
  exact decide_drop_iff

end Agent

/-! ## A Hub with one Node -/

/-- A plain inbound. -/
def plainInbound (tag : String) (port : Port) : Inbound where
  remark := tag
  protocol := .vless
  listen := .str "0.0.0.0"
  port := port
  enable := true
  tag := tag
  settings := .dict [("decryption", .str "none")]
  streamSettings := .dict []
  sniffing := .dict []
  panelMeta := .dict []

/-- One Node with one inbound and one policy for its direct connections. -/
def oneNode (policy : MatrixPolicy) : Hub where
  toCoreStore := { CoreStore.fresh with
    inbounds := Table.empty.insert 1 (plainInbound "in" ⟨443, by decide⟩) }
  matrix := Table.empty.insert ("node:N", 1, .direct) policy
  limits := Table.empty
  nodes := Table.empty.insert "N" ⟨⟨"https://n.example:8443", 8443⟩, true, "n.example", [1]⟩
  swaps := Table.empty
  nextSwap := 1
  relays := Table.empty
  warps := fun _ => none

/-- Names instead of hashes. -/
def plainCrypto : Crypto where
  digest := fun _ s => s
  publicKey := some

/-- The same Node, with a route from its inbound to an exit that is gone. -/
def routedNode (policy : MatrixPolicy) : Hub :=
  { oneNode policy with
    relays := Table.empty.insert ("N", 1) ⟨"X", 2, "relay", "credential", true, .enabled⟩ }

/-- A connection at the primary port to a domain that the policies of the Hub list. -/
def listedDomain : Connection where
  inboundTag := "in"
  meets := fun key v => key = "domain" || (key = "localPort" && v.int? = some 443)

/-- Xray refuses a configuration in which two listeners have one tag. -/
def distinctTags (a : AgentConfig) : Bool :=
  decide ((listeners a.parts).map Listener.tag).Nodup

/-- The Agent has the configuration of a Hub, and a check of both holds. -/
def installsWith (h : Hub) (check : NodePayload → AgentConfig → Bool) : Option Bool :=
  (h.nodePayload Builtins.ascii plainCrypto ⟨true, []⟩ "N").toOption.bind fun p =>
    (p.agentConfig Builtins.ascii plainCrypto "N").map fun a =>
      a.parts.head?.map (fun part => part.1.tag) = some "in" && distinctTags a && check p a

/-- A payload that is accepted is installed. -/
theorem installs {h : Hub} {check : NodePayload → AgentConfig → Bool}
    (hrun : installsWith h check = some true) :
    ∃ p a, h.nodePayload Builtins.ascii plainCrypto ⟨true, []⟩ "N" = .ok p ∧
      p.agentConfig Builtins.ascii plainCrypto "N" = some a ∧ distinctTags a = true ∧
      a.Arrives listedDomain.inboundTag none ∧ check p a = true := by
  unfold installsWith at hrun
  cases hp : h.nodePayload Builtins.ascii plainCrypto ⟨true, []⟩ "N" with
  | error e =>
      rw [hp] at hrun
      cases hrun
  | ok p =>
      rw [hp] at hrun
      cases ha : p.agentConfig Builtins.ascii plainCrypto "N" with
      | none =>
          simp [Except.toOption, ha] at hrun
      | some a =>
          simp only [Except.toOption, Option.bind_some, ha, Option.map_some, Option.some.injEq,
            Bool.and_eq_true, decide_eq_true_eq] at hrun
          obtain ⟨⟨hhead, hdistinct⟩, hcheck⟩ := hrun
          obtain ⟨part, hpart, htag⟩ := Option.map_eq_some_iff.mp hhead
          exact ⟨p, a, rfl, ha, hdistinct,
            ⟨part, List.mem_of_head? hpart, Or.inl ⟨htag.symm, rfl⟩⟩, hcheck⟩

/-- A route keeps a policy that blocks: its copy of the rule is not marked, and the Agent enforces
it. -/
theorem node_routes_iff_kept :
    ∃ p a, (routedNode .adblock).nodePayload Builtins.ascii plainCrypto ⟨true, []⟩ "N" = .ok p ∧
      p.agentConfig Builtins.ascii plainCrypto "N" = some a ∧
      a.target listedDomain = p.target none listedDomain ∧
      (routedNode .adblock).policyTarget Builtins.ascii "node:N" listedDomain =
        some (.outbound "block") ∧ a.target listedDomain = .outbound "block" := by
  have hrun : installsWith (routedNode .adblock) (fun _ _ => true) = some true := by
    decide +kernel
  have hpolicy : (routedNode .adblock).policyTarget Builtins.ascii "node:N" listedDomain =
      some (.outbound "block") := by decide +kernel
  have hroute : (routedNode .adblock).routeTarget Builtins.ascii plainCrypto "N" none
      listedDomain = some (.outbound "block") := by decide +kernel
  obtain ⟨p, a, hp, ha, haccepted, harrives, -⟩ := installs hrun
  have hredundant : (routedNode .adblock).Redundant Builtins.ascii plainCrypto "N" none
      listedDomain := by
    intro target htarget
    obtain rfl := Option.some.inj (hpolicy.symm.trans htarget)
    exact Or.inl hroute
  obtain ⟨hsame, hdecides⟩ :=
    (node_routes_iff hp ha (fun _ h => of_decide_eq_true h) haccepted harrives).mpr hredundant
  exact ⟨p, a, hp, ha, hsame, hpolicy, hdecides _ hpolicy⟩

/-- The Node lets through what its policy blocks, and sends to an exit what its policy sends out
directly. -/
theorem policy_dropped :
    (∃ p a, (oneNode .adblock).nodePayload Builtins.ascii plainCrypto ⟨true, []⟩ "N" = .ok p ∧
      p.agentConfig Builtins.ascii plainCrypto "N" = some a ∧ distinctTags a = true ∧
      a.Arrives listedDomain.inboundTag none ∧
      (oneNode .adblock).policyTarget Builtins.ascii "node:N" listedDomain =
        some (.outbound "block") ∧
      p.target none listedDomain = .outbound "block" ∧
      a.target listedDomain = .outbound "direct") ∧
    ∃ p a, (routedNode .normal).nodePayload Builtins.ascii plainCrypto ⟨true, []⟩ "N" = .ok p ∧
      p.agentConfig Builtins.ascii plainCrypto "N" = some a ∧ distinctTags a = true ∧
      a.Arrives listedDomain.inboundTag none ∧
      (routedNode .normal).policyTarget Builtins.ascii "node:N" listedDomain =
        some (.outbound "direct") ∧
      a.target listedDomain = .outbound (relayTag plainCrypto ("N", 1)) := by
  have hdropped : installsWith (oneNode .adblock) (fun p a =>
      p.target none listedDomain = .outbound "block" && a.target listedDomain = .outbound "direct") =
        some true := by decide +kernel
  have hdiverted : installsWith (routedNode .normal) (fun _ a =>
      a.target listedDomain = .outbound (relayTag plainCrypto ("N", 1))) = some true := by
    decide +kernel
  constructor
  · obtain ⟨p, a, hp, ha, haccepted, harrives, htargets⟩ := installs hdropped
    simp only [Bool.and_eq_true, decide_eq_true_eq] at htargets
    exact ⟨p, a, hp, ha, haccepted, harrives, by decide +kernel, htargets.1, htargets.2⟩
  · obtain ⟨p, a, hp, ha, haccepted, harrives, htarget⟩ := installs hdiverted
    exact ⟨p, a, hp, ha, haccepted, harrives, by decide +kernel, of_decide_eq_true htarget⟩

end Deployment
end DarkXray
