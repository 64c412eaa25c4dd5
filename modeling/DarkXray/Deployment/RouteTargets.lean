import DarkXray.Deployment.RouteCopies

/-!
# Where the routes of the Hub lead

The rules of the exit routes and of the swap routes of a Node stand in front of those of its
Traffic Matrix and of the stored ones.  What they decide can be read from the tables of the Hub:
the routes, the policies and the stored rules.

Main results:

- Theorem {lit}`routePart_decides`: what the rules of one exit route decide.
- Theorem {lit}`compileRelays_front`: what the rules of all exit routes of a Node decide.
- Theorem {lit}`enrichSwaps_ok`: what the swap routes add.
-/

namespace DarkXray
namespace Deployment

open Library Core Nodes

/-! ## The routes in the tables of the Hub -/

/-- The outbounds that refuse connections. -/
def blackholes (outbounds : List Doc) : List Doc :=
  outbounds.filter fun out => (out.get? "protocol").bind Doc.str? = some "blackhole"

/-- Where the connections of a route go: to the block that the rules choose, or to the route. -/
def routed (blocked : List Doc) (selected : String) (chosen : Option Target) : Target :=
  (chosen.map (divertTarget blocked selected)).getD (.outbound selected)

/-- A route leaves at a Node, by a listener that it can reach. -/
def Hub.leavesAt (crypto : Crypto) (h : Hub) (nodeId : String) (row : RelayRow) : Bool :=
  row.exitNode = nodeId && row.phase ≠ .deleting &&
    (relayDestination (h.estate crypto) row.exitNode row.exitInbound).isOk

/-- A route enters at a Node; one that also leaves there must leave. -/
def Hub.entersAt (crypto : Crypto) (h : Hub) (nodeId : String) (r : Route × RelayRow) : Bool :=
  r.1.1 = nodeId && r.2.enabled &&
    (r.2.exitNode ≠ nodeId || r.2.phase = .deleting || h.leavesAt crypto nodeId r.2)

/-- The exit routes that concern a Node. -/
def Hub.nodeRoutes (h : Hub) (nodeId : String) : List (Route × RelayRow) :=
  h.relayRows.filter fun r => r.2.exitNode = nodeId || (r.1.1 = nodeId && r.2.enabled)

/-- A swap route enters at a Node. -/
def swapsAt (nodeId : String) (row : SwapRow) : Bool :=
  row.phase ≠ .deleting && row.sourceNode = nodeId && row.enabled

/-- The swap routes that enter at a Node. -/
def Hub.nodeSwaps (h : Hub) (nodeId : String) : List (ℕ × SwapRow) :=
  h.swapRows.filter fun r => swapsAt nodeId r.2

/-- What the saved policies of a Node and the stored rules say about the connections that a route
takes: the policies for the listeners, and the rules that the route keeps. -/
def Hub.keptTarget (py : Builtins) (h : Hub) (nodeId key : String) (values : List String)
    (inbound : Option Inbound) (listens : String → Bool) (primary : Option String)
    (c : Connection) : Option Target :=
  (h.policyTargetAt py ("node:" ++ nodeId) listens c).or
    (decision (copyCovers key values inbound primary c) ruleTarget (baseRules h.routing))

/-- The connections of the user of a route leave the Node, unless they are blocked. -/
def Hub.exitTarget (py : Builtins) (crypto : Crypto) (h : Hub) (nodeId : String)
    (primary : Option String) (c : Connection) (r : Route × RelayRow) : Option Target :=
  let user := mirrorEmail crypto nodeId r.2.identity
  if h.leavesAt crypto nodeId r.2 && c.meets "user" (.list ([user].map Doc.str)) then
    some (routed (blackholes (h.runtimeOutbounds ("node:" ++ nodeId)))
      (relayTag crypto r.1 ++ "-exit")
      (h.keptTarget py nodeId "user" [user] none (comesTo primary c) primary c))
  else none

/-- The connections to the inbound of a route go to its exit, unless they are blocked. -/
def Hub.ingressTarget (py : Builtins) (crypto : Crypto) (h : Hub) (nodeId : String)
    (primary : Option String) (c : Connection) (r : Route × RelayRow) : Option Target :=
  if h.entersAt crypto nodeId r then
    (h.inbounds.get? r.1.2).bind fun inbound =>
      let tags := relayTags nodeId r.1.2 inbound
      ((h.keptTarget py nodeId "inboundTag" tags (some inbound)
          (keptListener tags inbound primary c) primary c).map
        (divertTarget (blackholes (h.runtimeOutbounds ("node:" ++ nodeId)))
          (relayTag crypto r.1))).or
        (if comesTo primary c inbound.tag then some (.outbound (relayTag crypto r.1)) else none)
  else none

/-- Where the routes of a Node lead a connection: the last swap route of its listener, the first
exit route of its user, or the first one of its inbound. -/
def Hub.routeTarget (py : Builtins) (crypto : Crypto) (h : Hub) (nodeId : String)
    (primary : Option String) (c : Connection) : Option Target :=
  (decision (fun r => comesTo primary c (swapTag r.1)) (fun r => .outbound (swapTag r.1))
      (h.nodeSwaps nodeId).reverse).or
    (((h.nodeRoutes nodeId).findSome? (h.exitTarget py crypto nodeId primary c)).or
      ((h.nodeRoutes nodeId).findSome? (h.ingressTarget py crypto nodeId primary c)))

/-- The outbounds that an exit route adds. -/
def Hub.routeOutbounds (crypto : Crypto) (h : Hub) (nodeId : String) (r : Route × RelayRow) :
    List String :=
  (if h.leavesAt crypto nodeId r.2 then [relayTag crypto r.1 ++ "-exit"] else []) ++
    if h.entersAt crypto nodeId r && (h.inbounds.get? r.1.2).isSome then [relayTag crypto r.1]
    else []

/-- The outbounds of a Node: those of the panel, of its exit routes and of its swap routes. -/
def Hub.nodeOutbounds (crypto : Crypto) (h : Hub) (nodeId : String) : List String :=
  (h.runtimeOutbounds ("node:" ++ nodeId)).map outboundTagOf ++
    ((h.nodeRoutes nodeId).flatMap (h.routeOutbounds crypto nodeId) ++
      (h.nodeSwaps nodeId).map fun r => swapTag r.1)

/-- The rules of the Traffic Matrix and the stored ones. -/
def Hub.nodeRules (py : Builtins) (crypto : Crypto) (h : Hub) (nodeId : String) : List Doc :=
  h.matrixRules py (crypto.digest 16) ("node:" ++ nodeId) ++ baseRules h.routing

section Targets

variable {py : Builtins} {crypto : Crypto} {cfg : Config} {h : Hub} {nodeId : String}
  {primary : Option String} {c : Connection} {blocked : List Doc} {r : Route × RelayRow}
  {part : Added}

/-! ## One exit route -/

theorem relayTag_eq {route : Route} : relayTag crypto route =
    "dark-relay-" ++ crypto.digest 20 (route.1 ++ "\x00" ++ toString route.2) :=
  rfl

theorem exitTag_eq {route : Route} : relayTag crypto route ++ "-exit" =
    "dark-relay-" ++ (crypto.digest 20 (route.1 ++ "\x00" ++ toString route.2) ++ "-exit") := by
  rw [relayTag, String.append_assoc]

/-- What the copies of a route decide. -/
theorem decision_kept {key tag selected rest : String} {values : List String}
    {inbound : Option Inbound} {listens : String → Bool} {policies : List Doc}
    (hkey : key ≠ "outboundTag" ∧ key ≠ "balancerTag") (htag : tag = "dark-relay-" ++ rest)
    (hmatches : MatchesBy (crypto.digest 16) ("node:" ++ nodeId) c
      (copyCovers key values inbound primary c) listens)
    (hpolicies : scopedPolicies blocked tag selected key values inbound
      (h.nodeRules py crypto nodeId) 0 = .ok policies) :
    decision (ruleCovers primary c) ruleTarget policies =
      (h.keptTarget py nodeId key values inbound listens primary c).map
        (divertTarget blocked selected) := by
  rw [decision_scopedPolicies hkey htag hpolicies, Hub.nodeRules, decision_append,
    decision_matrixRules_of hmatches, Hub.keptTarget]

/-- The last rule of a route at its exit. -/
def exitRule (tag email : String) : Doc :=
  .dict [("type", .str "field"), ("user", .list [.str email]), ("outboundTag", .str tag),
    ("ruleTag", .str tag)]

/-- The last rule of a route at its source. -/
def ingressRule (tag listener : String) : Doc :=
  .dict [("type", .str "field"), ("inboundTag", .list [.str listener]), ("outboundTag", .str tag),
    ("ruleTag", .str tag)]

/-- The last rule at the exit takes every connection of the user of the route. -/
theorem ruleCovers_exitRule (tag email : String) :
    ruleCovers primary c (exitRule tag email) = c.meets "user" (.list ([email].map Doc.str)) := by
  simp [ruleCovers, listsTag, conditionsHold, exitRule, Doc.get?, Doc.field?, Doc.dict?,
    noConditions]

/-- The last rule at the source takes every connection to the listener of the route. -/
theorem ruleCovers_ingressRule {tag rest : String} (htag : tag = "dark-relay-" ++ rest)
    (listener : String) :
    ruleCovers primary c (ingressRule tag listener) = comesTo primary c listener := by
  have hfield : (ingressRule tag listener).get? "inboundTag" =
      some (.list ([listener].map Doc.str)) := rfl
  have hmark : (ingressRule tag listener).get? "ruleTag" = some (.str ("dark-relay-" ++ rest)) := by
    rw [← htag]
    rfl
  have hconditions : conditionsHold (ingressRule tag listener) c = true := by
    simp [conditionsHold, ingressRule, Doc.dict?, noConditions]
  rw [ruleCovers, hconditions, Bool.and_true, isMatrixRule_ruleTag hmark, unmarked_relay,
    Bool.not_false, Bool.true_and, listens_of_list hfield, List.any_cons, List.any_nil,
    Bool.or_false]

/-- What the rules of a route at its exit decide. -/
theorem decision_exitRules {tag rest email : String} {policies : List Doc}
    (htag : tag = "dark-relay-" ++ rest)
    (hpolicies : scopedPolicies blocked tag tag "user" [email] none (h.nodeRules py crypto nodeId) 0 =
      .ok policies) :
    decision (ruleCovers primary c) ruleTarget (policies ++ [exitRule tag email]) =
      if c.meets "user" (.list ([email].map Doc.str)) then
        some (routed blocked tag
          (h.keptTarget py nodeId "user" [email] none (comesTo primary c) primary c))
      else none := by
  rw [decision_append, decision_cons, ruleCovers_exitRule]
  by_cases huser : c.meets "user" (.list ([email].map Doc.str)) = true
  · have hmatches : MatchesBy (crypto.digest 16) ("node:" ++ nodeId) c
        (copyCovers "user" [email] none primary c) (comesTo primary c) := by
      have hlistens : (fun tag => comesTo primary c tag && c.meets "user"
          (.list ([email].map Doc.str))) = comesTo primary c := by
        funext tag
        rw [huser, Bool.and_true]
      rw [← hlistens]
      exact matchesBy_user email
    rw [decision_kept (by decide) htag hmatches hpolicies, if_pos huser, if_pos huser, routed]
    cases h.keptTarget py nodeId "user" [email] none (comesTo primary c) primary c <;> rfl
  · rw [decision_scopedPolicies (by decide) htag hpolicies, if_neg huser, if_neg huser,
      decision_eq_none fun original _ => copyCovers_user (Bool.eq_false_iff.mpr huser)]
    rfl

/-- What the rules of a route at its source decide. -/
theorem decision_ingressRules {tag rest : String} {tags : List String} {inbound : Inbound}
    {policies : List Doc} (htag : tag = "dark-relay-" ++ rest)
    (hpolicies : scopedPolicies blocked tag tag "inboundTag" tags (some inbound)
      (h.nodeRules py crypto nodeId) 0 = .ok policies) :
    decision (ruleCovers primary c) ruleTarget (policies ++ [ingressRule tag inbound.tag]) =
      ((h.keptTarget py nodeId "inboundTag" tags (some inbound)
          (keptListener tags inbound primary c) primary c).map (divertTarget blocked tag)).or
        (if comesTo primary c inbound.tag then some (.outbound tag) else none) := by
  rw [decision_append, decision_cons, ruleCovers_ingressRule htag,
    decision_kept (by decide) htag (matchesBy_inboundTag tags inbound) hpolicies]
  rfl

/-- The rules of the route at its exit, and its outbound there. -/
theorem exitPart_decides {route : Route} {row : RelayRow} (hexit : row.exitNode = nodeId)
    (hphase : row.phase ≠ .deleting)
    (hpart : exitPart crypto h nodeId (blackholes (h.runtimeOutbounds ("node:" ++ nodeId)))
      (h.nodeRules py crypto nodeId) route row = .ok part) :
    decision (ruleCovers primary c) ruleTarget part.exitRules =
        h.exitTarget py crypto nodeId primary c (route, row) ∧
      part.outbounds.map outboundTagOf =
        if h.leavesAt crypto nodeId row then [relayTag crypto route ++ "-exit"] else [] := by
  unfold exitPart at hpart
  dsimp only at hpart
  cases hreached : relayDestination (h.estate crypto) row.exitNode row.exitInbound with
  | error e =>
      have hleaves : h.leavesAt crypto nodeId row = false := by
        rw [Hub.leavesAt, hreached]
        exact Bool.and_false _
      rw [hreached] at hpart
      cases hpart
      rw [Hub.exitTarget, hleaves]
      exact ⟨rfl, rfl⟩
  | ok exit =>
      have hleaves : h.leavesAt crypto nodeId row = true := by
        rw [Hub.leavesAt, hreached]
        simp [hexit, hphase, Except.isOk, Except.toBool]
      rw [hreached] at hpart
      obtain ⟨policies, hpolicies, hpart⟩ := except_bind_ok_iff.mp hpart
      cases hpart
      rw [Hub.exitTarget, hleaves, Bool.true_and]
      exact ⟨decision_exitRules exitTag_eq hpolicies, rfl⟩

/-- The rules of the route at its source, and its outbound there. -/
theorem ingressPart_decides {route : Route} {row : RelayRow}
    (henters : h.entersAt crypto nodeId (route, row) = true)
    (hpart : ingressPart crypto h nodeId (blackholes (h.runtimeOutbounds ("node:" ++ nodeId)))
      (h.nodeRules py crypto nodeId) route row = .ok part) :
    decision (ruleCovers primary c) ruleTarget part.ingressRules =
        h.ingressTarget py crypto nodeId primary c (route, row) ∧
      part.outbounds.map outboundTagOf =
        if (h.inbounds.get? route.2).isSome then [relayTag crypto route] else [] := by
  unfold ingressPart at hpart
  rw [Hub.ingressTarget, if_pos henters]
  cases hinbound : h.inbounds.get? route.2 with
  | none =>
      rw [hinbound] at hpart
      cases hpart
      exact ⟨rfl, rfl⟩
  | some inbound =>
      rw [hinbound] at hpart
      obtain ⟨policies, hpolicies, hpart⟩ := except_bind_ok_iff.mp hpart
      cases hpart
      have houtbound : outboundTagOf (ingressOutbound crypto h route row) =
          relayTag crypto route := by
        unfold ingressOutbound
        dsimp only
        split <;> rfl
      refine ⟨decision_ingressRules relayTag_eq hpolicies, ?_⟩
      rw [List.map_singleton, houtbound]
      rfl

/-- When the source part of a route is not skipped. -/
theorem entersAt_iff : h.entersAt crypto nodeId r = true ↔
    r.1.1 = nodeId ∧ r.2.enabled = true ∧ ¬((r.2.exitNode = nodeId ∧ r.2.phase ≠ .deleting) ∧
      (relayDestination (h.estate crypto) r.2.exitNode r.2.exitInbound).isOk = false) := by
  simp only [Hub.entersAt, Hub.leavesAt, Bool.and_eq_true, Bool.or_eq_true, decide_eq_true_eq]
  by_cases hexit : r.2.exitNode = nodeId
  · by_cases hphase : r.2.phase = .deleting
    · simp [hexit, hphase]
    · simp [hexit, hphase, and_assoc]
  · simp [hexit]

/-- What the rules of one exit route decide, and which outbounds it adds. -/
theorem routePart_decides
    (hpart : routePart crypto h nodeId (blackholes (h.runtimeOutbounds ("node:" ++ nodeId)))
      (h.nodeRules py crypto nodeId) r = .ok part) :
    decision (ruleCovers primary c) ruleTarget part.exitRules =
        h.exitTarget py crypto nodeId primary c r ∧
      decision (ruleCovers primary c) ruleTarget part.ingressRules =
        h.ingressTarget py crypto nodeId primary c r ∧
      part.outbounds.map outboundTagOf = h.routeOutbounds crypto nodeId r := by
  unfold routePart at hpart
  obtain ⟨exit, hexit, hpart⟩ := except_bind_ok_iff.mp hpart
  obtain ⟨ingress, hingress, hpart⟩ := except_bind_ok_iff.mp hpart
  cases hpart
  have hleft : decision (ruleCovers primary c) ruleTarget exit.exitRules =
      h.exitTarget py crypto nodeId primary c r ∧
        exit.outbounds.map outboundTagOf =
          if h.leavesAt crypto nodeId r.2 then [relayTag crypto r.1 ++ "-exit"] else [] := by
    unfold addedWhen at hexit
    split at hexit
    · rename_i hat
      exact exitPart_decides hat.1 hat.2 hexit
    · rename_i hskipped
      have hleaves : h.leavesAt crypto nodeId r.2 = false := by
        rw [Bool.eq_false_iff]
        intro hleaves
        simp only [Hub.leavesAt, Bool.and_eq_true, decide_eq_true_eq] at hleaves
        exact hskipped hleaves.1
      cases hexit
      rw [Hub.exitTarget, hleaves]
      exact ⟨rfl, rfl⟩
  have hright : decision (ruleCovers primary c) ruleTarget ingress.ingressRules =
      h.ingressTarget py crypto nodeId primary c r ∧
        ingress.outbounds.map outboundTagOf =
          if h.entersAt crypto nodeId r && (h.inbounds.get? r.1.2).isSome then [relayTag crypto r.1]
          else [] := by
    unfold addedWhen at hingress
    split at hingress
    · rename_i hat
      have hholds := entersAt_iff.mpr hat
      rw [hholds, Bool.true_and]
      exact ingressPart_decides hholds hingress
    · rename_i hskipped
      have hholds : h.entersAt crypto nodeId r = false := by
        rw [Bool.eq_false_iff]
        exact fun hholds => hskipped (entersAt_iff.mp hholds)
      cases hingress
      rw [Hub.ingressTarget, hholds]
      exact ⟨rfl, rfl⟩
  refine ⟨hleft.1, hright.1, ?_⟩
  rw [List.map_append, hleft.2, hright.2, Hub.routeOutbounds]

theorem exitPart_unmarked {rules : List Doc} {route : Route} {row : RelayRow}
    (hpart : exitPart crypto h nodeId blocked rules route row = .ok part) :
    Unmarked part.exitRules ∧ Unmarked part.ingressRules := by
  unfold exitPart at hpart
  cases hexit : relayDestination (h.estate crypto) row.exitNode row.exitInbound with
  | error e =>
      rw [hexit] at hpart
      cases hpart
      exact ⟨unmarked_nil, unmarked_nil⟩
  | ok exit =>
      rw [hexit] at hpart
      obtain ⟨policies, hpolicies, hpart⟩ := except_bind_ok_iff.mp hpart
      rw [except_pure_ok_iff] at hpart
      subst hpart
      refine ⟨(scopedPolicies_unmarked exitTag_eq hpolicies).append ?_, unmarked_nil⟩
      apply unmarked_single
      rw [exitTag_eq]
      rfl

theorem ingressPart_unmarked {rules : List Doc} {route : Route} {row : RelayRow}
    (hpart : ingressPart crypto h nodeId blocked rules route row = .ok part) :
    Unmarked part.exitRules ∧ Unmarked part.ingressRules := by
  unfold ingressPart at hpart
  cases hinbound : h.inbounds.get? route.2 with
  | none =>
      rw [hinbound] at hpart
      cases hpart
      exact ⟨unmarked_nil, unmarked_nil⟩
  | some inbound =>
      rw [hinbound] at hpart
      obtain ⟨policies, hpolicies, hpart⟩ := except_bind_ok_iff.mp hpart
      rw [except_pure_ok_iff] at hpart
      subst hpart
      refine ⟨unmarked_nil, (scopedPolicies_unmarked rfl hpolicies).append ?_⟩
      apply unmarked_single
      rfl

theorem routePart_unmarked {rules : List Doc}
    (hpart : routePart crypto h nodeId blocked rules r = .ok part) :
    Unmarked part.exitRules ∧ Unmarked part.ingressRules := by
  unfold routePart at hpart
  obtain ⟨exit, hexit, hpart⟩ := except_bind_ok_iff.mp hpart
  obtain ⟨ingress, hingress, hpart⟩ := except_bind_ok_iff.mp hpart
  rw [except_pure_ok_iff] at hpart
  subst hpart
  unfold addedWhen at hexit hingress
  constructor
  · split at hexit
    · exact (exitPart_unmarked hexit).1
    · cases hexit
      exact unmarked_nil
  · split at hingress
    · exact (ingressPart_unmarked hingress).2
    · cases hingress
      exact unmarked_nil

/-! ## All routes of a Node -/

/-- The parts of all exit routes that concern a Node. -/
theorem compileRelays_ok {outbounds rules : List Doc} {out : List Doc × List Doc}
    (hout : compileRelays crypto h nodeId outbounds rules = .ok out) :
    ∃ parts, List.Forall₂ (fun r part =>
        routePart crypto h nodeId (blackholes outbounds) rules r = .ok part)
        (h.nodeRoutes nodeId) parts ∧
      out.1 = outbounds ++ parts.flatMap Added.outbounds ∧
      out.2 = parts.flatMap Added.exitRules ++ parts.flatMap Added.ingressRules ++ rules := by
  unfold compileRelays at hout
  dsimp only at hout
  split at hout
  · rename_i hempty
    cases hout
    refine ⟨[], ?_, by simp, rfl⟩
    rw [Hub.nodeRoutes, List.isEmpty_iff.mp hempty]
    exact .nil
  · obtain ⟨_, -, hout⟩ := except_bind_ok_iff.mp hout
    obtain ⟨parts, hparts, hout⟩ := except_bind_ok_iff.mp hout
    cases hout
    exact ⟨parts, except_mapM_ok_iff.mp hparts, rfl, rfl⟩

/-- What the rules of all exit routes of a Node decide. -/
theorem compileRelays_front {out : List Doc × List Doc}
    (hout : compileRelays crypto h nodeId (h.runtimeOutbounds ("node:" ++ nodeId))
      (h.nodeRules py crypto nodeId) = .ok out) :
    ∃ front, out.2 = front ++ h.nodeRules py crypto nodeId ∧ Unmarked front ∧
      ∀ primary c, decision (ruleCovers primary c) ruleTarget front =
        ((h.nodeRoutes nodeId).findSome? (h.exitTarget py crypto nodeId primary c)).or
          ((h.nodeRoutes nodeId).findSome? (h.ingressTarget py crypto nodeId primary c)) := by
  obtain ⟨parts, hparts, -, hrules⟩ := compileRelays_ok hout
  have hunmarked : ∀ part ∈ parts, Unmarked part.exitRules ∧ Unmarked part.ingressRules := by
    intro part hmem
    obtain ⟨r, -, hpart⟩ := exists_of_mem_mapM (except_mapM_ok_iff.mpr hparts) hmem
    exact routePart_unmarked hpart
  refine ⟨_, hrules, Unmarked.append ?_ ?_, fun primary c => ?_⟩
  · exact unmarked_flatMap fun part hmem => (hunmarked part hmem).1
  · exact unmarked_flatMap fun part hmem => (hunmarked part hmem).2
  · rw [decision_append,
      decision_flatMap_of_forall₂ (hparts.imp fun _ _ hpart => (routePart_decides hpart).1),
      decision_flatMap_of_forall₂ (hparts.imp fun _ _ hpart => (routePart_decides hpart).2.1)]

/-- Which outbounds all exit routes of a Node add. -/
theorem compileRelays_outbounds {out : List Doc × List Doc}
    (hout : compileRelays crypto h nodeId (h.runtimeOutbounds ("node:" ++ nodeId))
      (h.nodeRules py crypto nodeId) = .ok out) :
    out.1.map outboundTagOf = (h.runtimeOutbounds ("node:" ++ nodeId)).map outboundTagOf ++
      (h.nodeRoutes nodeId).flatMap (h.routeOutbounds crypto nodeId) := by
  obtain ⟨parts, hparts, houtbounds, -⟩ := compileRelays_ok hout
  -- what is added is the same for every connection, so any one will do
  have htags : List.Forall₂ (fun r part => part.outbounds.map outboundTagOf =
      h.routeOutbounds crypto nodeId r) (h.nodeRoutes nodeId) parts := by
    refine hparts.imp fun r part hpart => ?_
    have hany : decision (ruleCovers none ⟨"", fun _ _ => false⟩) ruleTarget part.exitRules = _ ∧
      _ := routePart_decides hpart
    exact hany.2.2
  have hmaps : parts.map (fun part => part.outbounds.map outboundTagOf) =
      (h.nodeRoutes nodeId).map (h.routeOutbounds crypto nodeId) := by
    rw [← List.forall₂_eq_eq_eq, List.forall₂_map_left_iff, List.forall₂_map_right_iff]
    exact htags.flip
  rw [houtbounds, List.map_append, List.map_flatMap, List.flatMap_def, hmaps, ← List.flatMap_def]

/-! ## Swap routes -/

/-- A swap route that is left out at its exit is off. -/
theorem swapExit_none {id : ℕ} {row : SwapRow} {bundles : List Bundle}
    (hnone : swapExit cfg h nodeId id row bundles = .ok none) : row.enabled = false := by
  unfold swapExit at hnone
  split at hnone
  · split at hnone
    · split at hnone
      · rename_i hoff
        exact hoff.1
      · cases hnone
    · cases hnone
  · cases hnone

/-- The rules and outbounds that one swap route adds. -/
theorem enrichSwap_ok {d d' : Draft} {r : ℕ × SwapRow}
    (hd : enrichSwap cfg h nodeId d r = .ok d') :
    d'.rules = (if swapsAt nodeId r.2 then [swapRule r.1] else []) ++ d.rules ∧
      d'.outbounds = d.outbounds ++
        if swapsAt nodeId r.2 then [freedomOutbound (swapTag r.1)] else [] := by
  unfold enrichSwap at hd
  split at hd
  · rename_i hactive
    obtain ⟨bundles, hbundles, hd⟩ := except_bind_ok_iff.mp hd
    cases bundles with
    | none =>
        have hoff : swapsAt nodeId r.2 = false := by
          simp [swapsAt, swapExit_none hbundles]
        cases hd
        simp [hoff]
    | some bundles =>
        have hingress : swapIngress cfg h nodeId r.1 r.2 { d with bundles } = .ok d' := hd
        unfold swapIngress at hingress
        split at hingress
        · rename_i hat
          have hon : swapsAt nodeId r.2 = true := by
            simp [swapsAt, hactive.1, hat.1, hat.2]
          simp only [except_bind_ok_iff, except_pure_ok_iff] at hingress
          obtain ⟨_, -, _, -, exit, -, _, -, rfl⟩ := hingress
          rw [if_pos hon, if_pos hon]
          exact ⟨rfl, rfl⟩
        · rename_i hat
          have hoff : swapsAt nodeId r.2 = false := by
            rw [Bool.eq_false_iff]
            intro hon
            simp only [swapsAt, Bool.and_eq_true, decide_eq_true_eq] at hon
            exact hat ⟨hon.1.2, hon.2⟩
          cases hingress
          simp [hoff]
  · rename_i hactive
    have hoff : swapsAt nodeId r.2 = false := by
      rw [Bool.eq_false_iff]
      intro hon
      simp only [swapsAt, Bool.and_eq_true, decide_eq_true_eq] at hon
      exact hactive ⟨hon.1.1, Or.inr ⟨hon.1.2, hon.2⟩⟩
    cases hd
    simp [hoff]

/-- The rules and outbounds that all swap routes add; the rule of the last route comes first. -/
theorem enrichSwaps_ok {d d' : Draft} (hd : h.enrichSwaps cfg nodeId d = .ok d') :
    d'.rules = (h.nodeSwaps nodeId).reverse.map (fun r => swapRule r.1) ++ d.rules ∧
      d'.outbounds = d.outbounds ++
        (h.nodeSwaps nodeId).map fun r => freedomOutbound (swapTag r.1) := by
  unfold Hub.enrichSwaps at hd
  unfold Hub.nodeSwaps
  generalize h.swapRows = rows at hd
  induction rows generalizing d with
  | nil =>
      cases hd
      simp
  | cons r rows ih =>
      rw [List.foldlM_cons] at hd
      obtain ⟨next, hnext, hd⟩ := except_bind_ok_iff.mp hd
      obtain ⟨hrules, houtbounds⟩ := enrichSwap_ok hnext
      obtain ⟨hrules', houtbounds'⟩ := ih hd
      rw [hrules', houtbounds', hrules, houtbounds]
      by_cases hon : swapsAt nodeId r.2 = true
      · simp [hon]
      · simp [hon]

theorem swapRule_ruleTag (id : ℕ) : (swapRule id).get? "ruleTag" = some (.str (swapTag id)) :=
  rfl

theorem swapRules_unmarked (rows : List (ℕ × SwapRow)) :
    Unmarked (rows.map fun r => swapRule r.1) := by
  intro rule hrule
  obtain ⟨r, -, rfl⟩ := List.mem_map.mp hrule
  rw [isMatrixRule_ruleTag (swapRule_ruleTag r.1)]
  exact unmarked_swap _

/-- The rule of a swap route takes the connections to its listener. -/
theorem decision_swapRules (rows : List (ℕ × SwapRow)) :
    decision (ruleCovers primary c) ruleTarget (rows.map fun r => swapRule r.1) =
      decision (fun r => comesTo primary c (swapTag r.1)) (fun r => .outbound (swapTag r.1))
        rows := by
  refine decision_congr _ (fun r _ => ?_) fun r _ => rfl
  have hfield : (swapRule r.1).get? "inboundTag" = some (.list ([swapTag r.1].map Doc.str)) := rfl
  have hconditions : conditionsHold (swapRule r.1) c = true := by
    simp [conditionsHold, swapRule, Doc.dict?, noConditions]
  have hmark : isMatrixRule (swapRule r.1) = false := by
    rw [isMatrixRule_ruleTag (swapRule_ruleTag r.1)]
    exact unmarked_swap _
  rw [ruleCovers, hconditions, Bool.and_true, hmark, Bool.not_false, Bool.true_and,
    listens_of_list hfield, List.any_cons, List.any_nil, Bool.or_false]

end Targets

end Deployment
end DarkXray
