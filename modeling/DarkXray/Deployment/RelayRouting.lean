import DarkXray.Deployment.AgentRouting

/-!
# Where a compiled exit route sends its connections

{lit}`compile` puts copies of the rules in front of them: for each route one copy of every
rule that concerns it, in the same order, that leads to the outbound of the route unless it
leads to a block, and a last rule for everything else.  The engine then extends all rules
to the tunnel listeners.

Main results:

- Theorems {lit}`copyCovers_ingress` and {lit}`copyCovers_bridge`: a copy covers the connections
  of its route that the rule does.
- Theorem {lit}`relay_diverts`: where a connection of a route's listener goes.
- Theorem {lit}`bridge_diverts`: where the bridge user of a route goes at its exit.
-/

namespace DarkXray
namespace Deployment

open Library Core Nodes

/-! ## Rules and connections -/

/-- A field holds a list of texts, if there is one. -/
def TextsAt (rule : Doc) (key : String) : Prop :=
  ∀ v, rule.get? key = some v → ∃ texts : List String, v = .list (texts.map Doc.str)

/-- What the panel makes of routing, where routes read it: tags are lists of texts, and the rules
of the Traffic Matrix have no condition on the local port. -/
structure Regular (rule : Doc) : Prop where
  isDict : rule.isDict = true
  inboundTag : TextsAt rule "inboundTag"
  localPort : isMatrixRule rule = true → rule.get? "localPort" = none

/-- A connection with the user it is authenticated as and the port it arrived at. -/
structure Visit extends Connection where
  user : Option String
  port : Port
  users_exact : ∀ users : List String,
    meets "user" (.list (users.map Doc.str)) = users.any fun u => user = some u
  port_exact : ∀ p : Port, meets "localPort" p.doc = decide (p = port)

/-- A rule lists a text in a field, or has no such field. -/
def listsText (rule : Doc) (key text : String) : Bool :=
  (rule.get? key).elim true fun d => (d.list?.getD []).any fun item => item.str? = some text

section Fields

variable {rule v : Doc} {key text : String} {c : Connection}

theorem listsText_of_list {texts : List String}
    (hget : rule.get? key = some (.list (texts.map Doc.str))) (text : String) :
    listsText rule key text = decide (text ∈ texts) := by
  rw [listsText, hget, Option.elim_some, Doc.list?, Option.getD_some, any_str]

/-- A condition that is met may be replaced by another one. -/
theorem conditionsHold_set_met {old : Doc} (hkey : key ∉ noConditions)
    (hget : rule.get? key = some old) (hmet : c.meets key old = true) :
    conditionsHold (rule.set key v) c = (conditionsHold rule c && c.meets key v) := by
  cases rule with
  | atom a => cases hget
  | list items => cases hget
  | dict fields =>
      have hget' : Doc.field? fields key = some old := hget
      have hall : ((Doc.setField key v fields).all fun field =>
          decide (field.1 ∈ noConditions) || c.meets field.1 field.2) =
          ((fields.all fun field => decide (field.1 ∈ noConditions) || c.meets field.1 field.2) &&
            c.meets key v) := by
        clear hget
        induction fields with
        | nil => cases hget'
        | cons field fields ih =>
            rw [Doc.field?_cons] at hget'
            by_cases hfield : field.1 = key
            · rw [if_pos hfield] at hget'
              have hvalue := Option.some.inj hget'
              rw [Doc.setField, if_pos hfield, List.all_cons, List.all_cons, hfield, hvalue, hmet,
                Bool.or_true, Bool.true_and, Bool.and_comm]
              simp [hkey]
            · rw [if_neg hfield] at hget'
              rw [Doc.setField, if_neg hfield, List.all_cons, List.all_cons, ih hget',
                Bool.and_assoc]
      exact hall

end Fields

/-! ## The listeners of a route -/

/-- A connection enters at the primary listener of an inbound, or at its tunnel listener; the
tag is that of the primary listener which the tunnel listener belongs to. -/
inductive Enters (nodeId : String) (i : ℕ) (inbound : Inbound) (c : Visit) : Option String → Prop
  | direct (htag : c.inboundTag = inbound.tag) (hport : c.port = inbound.port) :
      Enters nodeId i inbound c none
  | tunnel (port : Port) (hlistens : tunnelPortOn nodeId inbound = some port)
      (htag : c.inboundTag = tunnelTag i port) (hport : c.port = port) :
      Enters nodeId i inbound c (some inbound.tag)

section Ingress

variable {blocked : List Doc} {tag selected rest nodeId : String} {i : ℕ} {inbound : Inbound}
  {original : Doc} {common : List String} {n : ℕ} {c : Visit} {primary : Option String}

/-- The conditions of a copy are those of the rule; a copy of a rule of the Traffic Matrix for
the primary listener alone also asks for its port. -/
theorem conditionsHold_ingress (hregular : Regular original) :
    conditionsHold (scopedConditions "inboundTag" (some inbound) original common) c.toConnection =
      (conditionsHold original c.toConnection &&
        if isMatrixRule original && common = [inbound.tag] then decide (inbound.port = c.port)
        else true) := by
  have hset : conditionsHold (original.set "inboundTag" (.list (common.map Doc.str)))
      c.toConnection = conditionsHold original c.toConnection := conditionsHold_set (by decide) _
  unfold scopedConditions
  dsimp only
  by_cases hmatrix : (isMatrixRule original && common = [inbound.tag]) = true
  · have hnone : (original.set "inboundTag" (.list (common.map Doc.str))).get? "localPort" =
        none := by
      rw [Doc.get?_set_of_ne _ (by decide)]
      rw [Bool.and_eq_true] at hmatrix
      exact hregular.localPort hmatrix.1
    rw [if_pos hmatrix, if_pos hmatrix, conditionsHold_set_new (by decide)
      (by rw [Doc.isDict_set, hregular.isDict]) hnone, hset, c.port_exact]
  · rw [if_neg hmatrix, if_neg hmatrix, hset, Bool.and_true]

/-- What a route keeps of a rule whose texts it reads. -/
theorem commonValues_texts {key : String} {values : List String} (hdict : original.isDict = true)
    (htexts : TextsAt original key) :
    commonValues original key values = .ok (values.filter (listsText original key)) := by
  unfold commonValues listsText
  rw [hdict]
  cases hget : original.get? key with
  | none => simp
  | some v =>
      obtain ⟨texts, rfl⟩ := htexts v hget
      rfl

/-- A rule applies to a connection of a route exactly if its copy does. -/
theorem ruleCovers_ingress (hregular : Regular original)
    (henters : Enters nodeId i inbound c primary)
    (hports : ∀ p, tunnelPortOn nodeId inbound = some p → p ≠ inbound.port)
    (hcommon : common = (relayTags nodeId i inbound).filter (listsText original "inboundTag")) :
    (common.any (comesTo primary c.toConnection) &&
      conditionsHold (scopedConditions "inboundTag" (some inbound) original common) c.toConnection) =
        ruleCovers primary c.toConnection original := by
  rw [conditionsHold_ingress hregular, ruleCovers, any_comesTo]
  have hlists : ∀ t, listsTag original t = listsText original "inboundTag" t := fun _ => rfl
  cases henters with
  | direct htag hport =>
      have hmem : decide (c.inboundTag ∈ common) = listsText original "inboundTag" c.inboundTag := by
        rw [hcommon, htag]
        simp [relayTags]
      rw [hmem, hlists, ← hport]
      simp
  | tunnel port hlistens htag hport =>
      have hne : inbound.port ≠ c.port := by
        rw [hport]
        exact (hports port hlistens).symm
      have hvalues : relayTags nodeId i inbound = [inbound.tag, c.inboundTag] := by
        rw [relayTags, hlistens, htag]
        rfl
      rw [hvalues] at hcommon
      rw [hlists, Option.elim_some, Option.elim_some, hcommon]
      cases hget : original.get? "inboundTag" with
      | none =>
          have hall : ∀ t, listsText original "inboundTag" t = true := by
            intro t
            rw [listsText, hget]
            rfl
          simp [hall]
      | some v =>
          obtain ⟨tags, rfl⟩ := hregular.inboundTag v hget
          have hmem : listsText original "inboundTag" = fun t => decide (t ∈ tags) := by
            funext t
            exact listsText_of_list hget t
          rw [namesInbound_of_list hget, hmem]
          -- the rule lists the tunnel listener, the primary one, both or neither
          by_cases htunnel : c.inboundTag ∈ tags
          · by_cases hprimary : inbound.tag ∈ tags
            · simp [htunnel, hprimary]
            · have hother : inbound.tag ≠ c.inboundTag := fun heq => hprimary (heq ▸ htunnel)
              simp [htunnel, hprimary, hother.symm]
          · by_cases hprimary : inbound.tag ∈ tags
            · have hother : inbound.tag ≠ c.inboundTag := fun heq => htunnel (heq ▸ hprimary)
              simp [htunnel, hprimary, hne]
              cases isMatrixRule original <;> simp
            · simp [htunnel, hprimary]

/-- A copy covers the connections of its route that the rule does. -/
theorem copyCovers_ingress (hregular : Regular original)
    (henters : Enters nodeId i inbound c primary)
    (hports : ∀ p, tunnelPortOn nodeId inbound = some p → p ≠ inbound.port) :
    copyCovers "inboundTag" (relayTags nodeId i inbound) (some inbound) primary c.toConnection
      original = ruleCovers primary c.toConnection original := by
  have hcovers := ruleCovers_ingress hregular henters hports rfl
  have hfield : (scopedConditions "inboundTag" (some inbound) original
      ((relayTags nodeId i inbound).filter (listsText original "inboundTag"))).get? "inboundTag" =
        some (.list (((relayTags nodeId i inbound).filter (listsText original "inboundTag")).map
          Doc.str)) := scopedConditions_key hregular.isDict (by decide)
  rw [copyCovers, commonValues_texts hregular.isDict hregular.inboundTag]
  dsimp only
  rw [listens_of_list hfield, hcovers]
  by_cases hempty : (relayTags nodeId i inbound).filter (listsText original "inboundTag") = []
  · rw [← hcovers, hempty]
    rfl
  · simp [hempty]

end Ingress

/-! ## The parts of a route -/

section Parts

variable {crypto : Crypto} {h : Hub} {nodeId : String} {blocked rules : List Doc} {route : Route}
  {row : RelayRow} {inbound : Inbound} {c : Visit} {primary : Option String} {part : Added}

/-- What the part of a route decides about its own connections. -/
theorem decision_ingressPart (hregular : ∀ rule ∈ rules, Regular rule)
    (hinbound : h.inbounds.get? route.2 = some inbound)
    (henters : Enters nodeId route.2 inbound c primary)
    (hports : ∀ p, tunnelPortOn nodeId inbound = some p → p ≠ inbound.port)
    (hpart : ingressPart crypto h nodeId blocked rules route row = .ok part) :
    decision (ruleCovers primary c.toConnection) ruleTarget part.ingressRules =
      some (routed blocked (relayTag crypto route)
        (decision (ruleCovers primary c.toConnection) ruleTarget rules)) := by
  unfold ingressPart at hpart
  rw [hinbound] at hpart
  obtain ⟨policies, hpolicies, hpart⟩ := except_bind_ok_iff.mp hpart
  rw [except_pure_ok_iff] at hpart
  subst hpart
  have hlast : comesTo primary c.toConnection inbound.tag = true := by
    cases henters with
    | direct htag hport => simp [comesTo, htag]
    | tunnel port hlistens htag hport => simp [comesTo]
  have hkept : decision (ruleCovers primary c.toConnection) ruleTarget policies =
      (decision (ruleCovers primary c.toConnection) ruleTarget rules).map
        (divertTarget blocked (relayTag crypto route)) := by
    have hcopies : decision (copyCovers "inboundTag" (relayTags nodeId route.2 inbound)
        (some inbound) primary c.toConnection) ruleTarget rules =
          decision (ruleCovers primary c.toConnection) ruleTarget rules :=
      decision_congr_left fun rule hrule => copyCovers_ingress (hregular rule hrule) henters hports
    rw [← hcopies]
    exact decision_scopedPolicies (by decide) relayTag_eq hpolicies
  have hrules : decision (ruleCovers primary c.toConnection) ruleTarget
      (policies ++ [ingressRule (relayTag crypto route) inbound.tag]) =
        some (routed blocked (relayTag crypto route)
          (decision (ruleCovers primary c.toConnection) ruleTarget rules)) := by
    rw [decision_append, hkept, decision_cons, ruleCovers_ingressRule relayTag_eq, if_pos hlast]
    cases decision (ruleCovers primary c.toConnection) ruleTarget rules <;> rfl
  exact hrules

/-- A connection does not belong to the listeners of an inbound. -/
def Elsewhere (nodeId : String) (i : ℕ) (inbound : Inbound) (c : Visit) (primary : Option String) :
    Prop :=
  c.inboundTag ∉ relayTags nodeId i inbound ∧ ∀ p, primary = some p → p ∉ relayTags nodeId i inbound

theorem Elsewhere.none {i : ℕ} (h : Elsewhere nodeId i inbound c primary) :
    (relayTags nodeId i inbound).any (comesTo primary c.toConnection) = false := by
  rw [any_comesTo, decide_eq_false h.1, Bool.false_or]
  cases primary with
  | none => rfl
  | some p => exact decide_eq_false (h.2 p rfl)

/-- It decides nothing about other connections. -/
theorem decision_ingressPart_other
    (helsewhere : ∀ w, h.inbounds.get? route.2 = some w → Elsewhere nodeId route.2 w c primary)
    (hpart : ingressPart crypto h nodeId blocked rules route row = .ok part) :
    decision (ruleCovers primary c.toConnection) ruleTarget part.ingressRules = none := by
  unfold ingressPart at hpart
  cases hinbound : h.inbounds.get? route.2 with
  | none =>
      rw [hinbound] at hpart
      cases hpart
      rfl
  | some w =>
      rw [hinbound] at hpart
      obtain ⟨policies, hpolicies, hpart⟩ := except_bind_ok_iff.mp hpart
      rw [except_pure_ok_iff] at hpart
      subst hpart
      have hnone : (relayTags nodeId route.2 w).any (comesTo primary c.toConnection) = false :=
        (helsewhere w hinbound).none
      have hlast : comesTo primary c.toConnection w.tag = false := by
        rw [List.any_eq_false] at hnone
        exact Bool.eq_false_iff.mpr (hnone w.tag List.mem_cons_self)
      have hrules : decision (ruleCovers primary c.toConnection) ruleTarget
          (policies ++ [ingressRule (relayTag crypto route) w.tag]) = none := by
        have hskipped : decision (copyCovers "inboundTag" (relayTags nodeId route.2 w) (some w)
            primary c.toConnection) ruleTarget rules = none :=
          decision_eq_none fun original _ => copyCovers_elsewhere hnone
        have hkept : decision (ruleCovers primary c.toConnection) ruleTarget policies =
            (decision (copyCovers "inboundTag" (relayTags nodeId route.2 w) (some w) primary
              c.toConnection) ruleTarget rules).map (divertTarget blocked (relayTag crypto route)) :=
          decision_scopedPolicies (by decide) relayTag_eq hpolicies
        rw [decision_append, hkept, hskipped, decision_cons, ruleCovers_ingressRule relayTag_eq,
          hlast]
        rfl
      exact hrules

/-- A connection meets the condition on one user only if it is authenticated as that user. -/
theorem Visit.meets_user (c : Visit) (email : String) :
    c.meets "user" (.list ([email].map Doc.str)) = decide (c.user = some email) := by
  rw [c.users_exact]
  simp

/-- The part of a route at its exit decides about its bridge user only. -/
theorem decision_exitPart_other
    (huser : c.user ≠ some (mirrorEmail crypto nodeId row.identity))
    (hpart : exitPart crypto h nodeId blocked rules route row = .ok part) :
    decision (ruleCovers primary c.toConnection) ruleTarget part.exitRules = none := by
  unfold exitPart at hpart
  dsimp only at hpart
  cases hexit : relayDestination (h.estate crypto) row.exitNode row.exitInbound with
  | error e =>
      rw [hexit] at hpart
      cases hpart
      rfl
  | ok exit =>
      rw [hexit] at hpart
      obtain ⟨policies, hpolicies, hpart⟩ := except_bind_ok_iff.mp hpart
      rw [except_pure_ok_iff] at hpart
      subst hpart
      have hother : c.meets "user" (.list ([mirrorEmail crypto nodeId row.identity].map Doc.str)) =
          false := by
        rw [c.meets_user, decide_eq_false huser]
      have hrules : decision (ruleCovers primary c.toConnection) ruleTarget
          (policies ++ [exitRule (relayTag crypto route ++ "-exit")
            (mirrorEmail crypto nodeId row.identity)]) = none := by
        rw [decision_append, decision_scopedPolicies (by decide) exitTag_eq hpolicies,
          decision_eq_none fun original _ => copyCovers_user hother, decision_cons,
          ruleCovers_exitRule, hother]
        rfl
      exact hrules

/-- A rule applies to the bridge user of a route exactly if its copy does. -/
theorem conditionsHold_bridge {original : Doc} {email : String} {common : List String}
    (hdict : original.isDict = true) (htexts : TextsAt original "user")
    (huser : c.user = some email) (hcommon : common = [email].filter (listsText original "user")) :
    conditionsHold (scopedConditions "user" none original common) c.toConnection =
      conditionsHold original c.toConnection := by
  unfold scopedConditions
  dsimp only
  have hmeets : ∀ users : List String,
      c.meets "user" (.list (users.map Doc.str)) = decide (email ∈ users) := by
    intro users
    rw [c.users_exact, huser]
    induction users with
    | nil => rfl
    | cons u users ih =>
        rw [List.any_cons, ih]
        simp
  cases hget : original.get? "user" with
  | none =>
      have hone : common = [email] := by
        rw [hcommon]
        simp [listsText, hget]
      rw [conditionsHold_set_new (by decide) hdict hget, hmeets, hone]
      simp
  | some v =>
      obtain ⟨users, rfl⟩ := htexts v hget
      by_cases hlisted : email ∈ users
      · have hone : common = [email] := by
          rw [hcommon]
          simp [listsText_of_list hget, hlisted]
        have hmet : c.meets "user" (.list (users.map Doc.str)) = true := by
          rw [hmeets]
          exact decide_eq_true hlisted
        rw [conditionsHold_set_met (by decide) hget hmet, hmeets, hone]
        simp
      · have hempty : common = [] := by
          rw [hcommon]
          simp [listsText_of_list hget, hlisted]
        have hset : (original.set "user" (.list (common.map Doc.str))).get? "user" =
            some (.list (([] : List String).map Doc.str)) := by
          rw [Doc.get?_set hdict, if_pos rfl, hempty]
        have hcopy : conditionsHold (original.set "user" (.list (common.map Doc.str)))
            c.toConnection = false := by
          rw [Bool.eq_false_iff]
          intro hholds
          have := meets_of_conditionsHold (by decide) hset hholds
          rw [hmeets] at this
          simp at this
        have hrule : conditionsHold original c.toConnection = false := by
          rw [Bool.eq_false_iff]
          intro hholds
          have := meets_of_conditionsHold (by decide) hget hholds
          rw [hmeets] at this
          simp [hlisted] at this
        rw [hcopy, hrule]

/-- A copy covers the connections of the bridge user that the rule does. -/
theorem copyCovers_bridge {original : Doc} {email : String} (hdict : original.isDict = true)
    (htexts : TextsAt original "user") (huser : c.user = some email) :
    copyCovers "user" [email] none none c.toConnection original =
      ruleCovers none c.toConnection original := by
  have hconditions := conditionsHold_bridge hdict htexts huser rfl
  rw [copyCovers, commonValues_texts hdict htexts]
  dsimp only
  rw [hconditions, listsTag, scopedConditions_get? (by decide) (by decide), ruleCovers]
  by_cases hempty : [email].filter (listsText original "user") = []
  · have hnone : conditionsHold original c.toConnection = false := by
      rw [← hconditions, hempty, Bool.eq_false_iff]
      intro hholds
      have hmeets := meets_of_conditionsHold (by decide)
        (scopedConditions_key hdict (by decide)) hholds
      rw [c.users_exact] at hmeets
      cases hmeets
    rw [hnone, Bool.and_false, Bool.and_false, Bool.and_false]
  · simp [hempty, listsTag]

/-- What the part of a route at its exit decides about its bridge user, when it enters at a
primary listener. -/
theorem decision_exitPart (hdicts : ∀ rule ∈ rules, rule.isDict = true)
    (htexts : ∀ rule ∈ rules, TextsAt rule "user")
    (huser : c.user = some (mirrorEmail crypto nodeId row.identity))
    (hreached : (relayDestination (h.estate crypto) row.exitNode row.exitInbound).isOk = true)
    (hpart : exitPart crypto h nodeId blocked rules route row = .ok part) :
    decision (ruleCovers none c.toConnection) ruleTarget part.exitRules =
      some (routed blocked (relayTag crypto route ++ "-exit")
        (decision (ruleCovers none c.toConnection) ruleTarget rules)) := by
  unfold exitPart at hpart
  dsimp only at hpart
  cases hexit : relayDestination (h.estate crypto) row.exitNode row.exitInbound with
  | error e =>
      rw [hexit] at hreached
      cases hreached
  | ok exit =>
      rw [hexit] at hpart
      obtain ⟨policies, hpolicies, hpart⟩ := except_bind_ok_iff.mp hpart
      rw [except_pure_ok_iff] at hpart
      subst hpart
      have hkept : decision (ruleCovers none c.toConnection) ruleTarget policies =
          (decision (ruleCovers none c.toConnection) ruleTarget rules).map
            (divertTarget blocked (relayTag crypto route ++ "-exit")) := by
        have hcopies : decision (copyCovers "user" [mirrorEmail crypto nodeId row.identity] none none
            c.toConnection) ruleTarget rules =
              decision (ruleCovers none c.toConnection) ruleTarget rules :=
          decision_congr_left fun rule hrule =>
            copyCovers_bridge (hdicts rule hrule) (htexts rule hrule) huser
        rw [← hcopies]
        exact decision_scopedPolicies (by decide) exitTag_eq hpolicies
      have hrules : decision (ruleCovers none c.toConnection) ruleTarget
          (policies ++ [exitRule (relayTag crypto route ++ "-exit")
            (mirrorEmail crypto nodeId row.identity)]) =
          some (routed blocked (relayTag crypto route ++ "-exit")
            (decision (ruleCovers none c.toConnection) ruleTarget rules)) := by
        rw [decision_append, hkept, decision_cons, ruleCovers_exitRule, c.meets_user,
          decide_eq_true huser]
        cases decision (ruleCovers none c.toConnection) ruleTarget rules <;> rfl
      exact hrules

end Parts

/-! ## The whole compilation -/

/-- No two listeners of the inbounds share a tag on a Node, and the two ports of an inbound
differ. -/
structure Distinct (h : Hub) (nodeId : String) : Prop where
  tags : ∀ i j v w, h.inbounds.get? i = some v → h.inbounds.get? j = some w → i ≠ j →
    (relayTags nodeId i v).Disjoint (relayTags nodeId j w)
  tunnel : ∀ i v p, h.inbounds.get? i = some v → tunnelPortOn nodeId v = some p →
    p ≠ v.port ∧ v.tag ≠ tunnelTag i p

/-- The tunnel listeners that the engine of a Node adds are those of the inbounds there. -/
def Shadows (h : Hub) (nodeId : String) (shadows : List (String × String)) : Prop :=
  ∀ p t, (p, t) ∈ shadows → ∃ j w port, h.inbounds.get? j = some w ∧ w.tag = p ∧
    tunnelPortOn nodeId w = some port ∧ t = tunnelTag j port

/-- A connection is authenticated as the bridge user of a route that leaves at a Node. -/
def Bridged (crypto : Crypto) (h : Hub) (nodeId : String) (c : Visit) : Prop :=
  ∃ r ∈ h.relays.rows, r.2.exitNode = nodeId ∧ r.2.phase ≠ .deleting ∧
    c.user = some (mirrorEmail crypto nodeId r.2.identity)

section Compiled

variable {crypto : Crypto} {h : Hub} {nodeId : String} {blocked outbounds rules : List Doc}
  {out : List Doc × List Doc} {i : ℕ} {row : RelayRow} {inbound : Inbound} {c : Visit}
  {primary : Option String} {shadows : List (String × String)} {r : Route × RelayRow}
  {part : Added}

/-- The tag of a connection, and the primary tag that it belongs to, are tags of its inbound. -/
theorem Enters.mem_relayTags (henters : Enters nodeId i inbound c primary) :
    c.inboundTag ∈ relayTags nodeId i inbound ∧
      ∀ p, primary = some p → p ∈ relayTags nodeId i inbound := by
  cases henters with
  | direct htag hport =>
      rw [htag]
      exact ⟨List.mem_cons_self, fun p hp => absurd hp.symm (Option.some_ne_none p)⟩
  | tunnel port hlistens htag hport =>
      constructor
      · rw [htag, relayTags, hlistens]
        exact List.mem_cons_of_mem _ List.mem_cons_self
      · rintro p ⟨⟩
        exact List.mem_cons_self

theorem Enters.elsewhere (hdistinct : Distinct h nodeId)
    (hinbound : h.inbounds.get? i = some inbound) (henters : Enters nodeId i inbound c primary)
    {j : ℕ} {w : Inbound} (hw : h.inbounds.get? j = some w) (hne : i ≠ j) :
    Elsewhere nodeId j w c primary := by
  have hdisjoint := hdistinct.tags i j inbound w hinbound hw hne
  obtain ⟨htag, hprimary⟩ := henters.mem_relayTags
  exact ⟨fun hmem => hdisjoint htag hmem, fun p hp hmem => hdisjoint (hprimary p hp) hmem⟩

/-- The engine extends rules to the listener of a connection exactly from its primary tag. -/
theorem Enters.shadows_iff (hdistinct : Distinct h nodeId)
    (hinbound : h.inbounds.get? i = some inbound) (henters : Enters nodeId i inbound c primary)
    (hshadows : Shadows h nodeId shadows)
    (hlistens : ∀ p, primary = some p → (p, c.inboundTag) ∈ shadows) (p : String) :
    (p, c.inboundTag) ∈ shadows ↔ primary = some p := by
  refine ⟨fun hmem => ?_, hlistens p⟩
  obtain ⟨j, w, port, hw, htag, hport, htunnel⟩ := hshadows p c.inboundTag hmem
  have hmemTags : c.inboundTag ∈ relayTags nodeId j w := by
    rw [htunnel, relayTags, hport]
    exact List.mem_cons_of_mem _ List.mem_cons_self
  by_cases hne : i = j
  · subst hne
    obtain rfl := Option.some.inj (hw.symm.trans hinbound)
    cases henters with
    | direct hdirect _ =>
        exact absurd (hdirect.symm.trans htunnel) (hdistinct.tunnel i w port hw hport).2
    | tunnel _ _ _ _ => rw [htag]
  · exact absurd hmemTags (henters.elsewhere hdistinct hinbound hw hne).1

/-- The rules that are put in front, when one route concerns the Node. -/
theorem compileRelays_concerned (hout : compileRelays crypto h nodeId outbounds rules = .ok out)
    (hrow : h.relays.get? r.1 = some r.2)
    (hconcerns : r.2.exitNode = nodeId ∨ r.1.1 = nodeId ∧ r.2.enabled = true) :
    ∃ parts : List Added,
      out.2 = parts.flatMap Added.exitRules ++ parts.flatMap Added.ingressRules ++ rules ∧
      (∀ part ∈ parts, ∃ r' ∈ h.relays.rows,
        routePart crypto h nodeId (blackholes outbounds) rules r' = .ok part) ∧
      ∃ part ∈ parts, routePart crypto h nodeId (blackholes outbounds) rules r = .ok part := by
  have hmem : r ∈ h.nodeRoutes nodeId := by
    rw [Hub.nodeRoutes, List.mem_filter, Hub.relayRows, List.mem_insertionSort]
    exact ⟨Table.get?_eq_some_iff.mp hrow, by simpa using hconcerns⟩
  obtain ⟨parts, hparts, -, hrules⟩ := compileRelays_ok hout
  have hmapped := except_mapM_ok_iff.mpr hparts
  refine ⟨parts, hrules, fun part hpart => ?_, exists_of_mem_mapM_left hmapped hmem⟩
  obtain ⟨r', hr', hroute⟩ := exists_of_mem_mapM hmapped hpart
  exact ⟨r', (List.mem_insertionSort _).mp (List.mem_filter.mp hr').1, hroute⟩

/-- The rules that a route adds: those of its exit and those of its source. -/
theorem routePart_ok (hpart : routePart crypto h nodeId blocked rules r = .ok part) :
    ((part.exitRules = [] ∧ (r.2.exitNode = nodeId → r.2.phase = .deleting)) ∨
      (r.2.exitNode = nodeId ∧ r.2.phase ≠ .deleting) ∧
      ∃ exit, exitPart crypto h nodeId blocked rules r.1 r.2 = .ok exit ∧
        part.exitRules = exit.exitRules) ∧
    ((part.ingressRules = [] ∧ (r.1.1 = nodeId → r.2.enabled = true → r.2.exitNode = nodeId)) ∨
      r.1.1 = nodeId ∧
      ∃ ingress, ingressPart crypto h nodeId blocked rules r.1 r.2 = .ok ingress ∧
        part.ingressRules = ingress.ingressRules) := by
  unfold routePart at hpart
  obtain ⟨exit, hexit, hpart⟩ := except_bind_ok_iff.mp hpart
  obtain ⟨ingress, hingress, hpart⟩ := except_bind_ok_iff.mp hpart
  rw [except_pure_ok_iff] at hpart
  subst hpart
  constructor
  · unfold addedWhen at hexit
    split at hexit
    · rename_i hat
      exact Or.inr ⟨hat, exit, hexit, rfl⟩
    · rename_i hskipped
      cases hexit
      refine Or.inl ⟨rfl, fun hat => ?_⟩
      by_contra hphase
      exact hskipped ⟨hat, hphase⟩
  · unfold addedWhen at hingress
    split at hingress
    · rename_i hat
      exact Or.inr ⟨hat.1, ingress, hingress, rfl⟩
    · rename_i hskipped
      cases hingress
      refine Or.inl ⟨rfl, fun hsource henabled => ?_⟩
      by_contra hexit
      exact hskipped ⟨hsource, henabled, fun hat => hexit hat.1.1⟩

/-- At its exit each route decides about its bridge user only. -/
theorem decision_routePart_exit
    (hother : r.2.exitNode = nodeId ∧ r.2.phase ≠ .deleting →
      c.user ≠ some (mirrorEmail crypto nodeId r.2.identity))
    (hpart : routePart crypto h nodeId blocked rules r = .ok part) :
    decision (ruleCovers primary c.toConnection) ruleTarget part.exitRules = none := by
  obtain ⟨⟨hempty, -⟩ | ⟨hat, exit, hexit, hrules⟩, -⟩ := routePart_ok hpart
  · rw [hempty]
    rfl
  · rw [hrules]
    exact decision_exitPart_other (hother hat) hexit

/-- At its source each route decides about the connections of its inbound only. -/
theorem decision_routePart_ingress (hregular : ∀ rule ∈ rules, Regular rule)
    (hdistinct : Distinct h nodeId) (hinbound : h.inbounds.get? i = some inbound)
    (henters : Enters nodeId i inbound c primary)
    (hpart : routePart crypto h nodeId blocked rules r = .ok part) :
    decision (ruleCovers primary c.toConnection) ruleTarget part.ingressRules = none ∨
      decision (ruleCovers primary c.toConnection) ruleTarget part.ingressRules =
        some (routed blocked (relayTag crypto (nodeId, i))
          (decision (ruleCovers primary c.toConnection) ruleTarget rules)) := by
  obtain ⟨-, ⟨hempty, -⟩ | ⟨hsource, ingress, hingress, hrules⟩⟩ := routePart_ok hpart
  · rw [hempty]
    exact Or.inl rfl
  · obtain ⟨⟨source, j⟩, row⟩ := r
    rw [hrules]
    by_cases hi : j = i
    · have hports : ∀ p, tunnelPortOn nodeId inbound = some p → p ≠ inbound.port :=
        fun p hp => (hdistinct.tunnel i inbound p hinbound hp).1
      subst hsource hi
      exact Or.inr (decision_ingressPart hregular hinbound henters hports hingress)
    · refine Or.inl (decision_ingressPart_other (fun w hw => ?_) hingress)
      exact henters.elsewhere hdistinct hinbound hw (Ne.symm hi)

/-- The route of the inbound itself decides. -/
theorem decision_routePart_own (hregular : ∀ rule ∈ rules, Regular rule)
    (henabled : row.enabled = true) (hexit : row.exitNode ≠ nodeId)
    (hdistinct : Distinct h nodeId) (hinbound : h.inbounds.get? i = some inbound)
    (henters : Enters nodeId i inbound c primary)
    (hpart : routePart crypto h nodeId blocked rules ((nodeId, i), row) = .ok part) :
    decision (ruleCovers primary c.toConnection) ruleTarget part.ingressRules =
      some (routed blocked (relayTag crypto (nodeId, i))
        (decision (ruleCovers primary c.toConnection) ruleTarget rules)) := by
  obtain ⟨-, ⟨-, hskipped⟩ | ⟨-, ingress, hingress, hrules⟩⟩ := routePart_ok hpart
  · exact absurd (hskipped rfl henabled) hexit
  · have hports : ∀ p, tunnelPortOn nodeId inbound = some p → p ≠ inbound.port :=
      fun p hp => (hdistinct.tunnel i inbound p hinbound hp).1
    rw [hrules]
    exact decision_ingressPart hregular hinbound henters hports hingress

/-- A connection of a route goes to the block that the rules choose for it, or else to the
outbound of the route. -/
theorem relay_diverts (hout : compileRelays crypto h nodeId outbounds rules = .ok out)
    (hregular : ∀ rule ∈ rules, Regular rule)
    (hrow : h.relays.get? (nodeId, i) = some row) (henabled : row.enabled = true)
    (hexit : row.exitNode ≠ nodeId) (hinbound : h.inbounds.get? i = some inbound)
    (henters : Enters nodeId i inbound c primary) (hdistinct : Distinct h nodeId)
    (hshadows : Shadows h nodeId shadows)
    (hlistens : ∀ p, primary = some p → (p, c.inboundTag) ∈ shadows)
    (hbridged : ¬Bridged crypto h nodeId c) :
    decision (ruleHolds c.toConnection) ruleTarget (out.2.map (expandRule shadows)) =
      some (routed (blackholes outbounds) (relayTag crypto (nodeId, i))
        (decision (ruleHolds c.toConnection) ruleTarget (rules.map (expandRule shadows)))) := by
  have hexpand : ∀ rules : List Doc,
      decision (ruleHolds c.toConnection) ruleTarget (rules.map (expandRule shadows)) =
        decision (ruleCovers primary c.toConnection) ruleTarget rules := by
    intro rules
    apply decision_congr
    · exact fun rule _ =>
        holds_expandRule (henters.shadows_iff hdistinct hinbound hshadows hlistens)
    · exact fun rule _ => ruleTarget_expandRule
  obtain ⟨parts, hrules, hroutes, hown⟩ :=
    compileRelays_concerned (r := ((nodeId, i), row)) hout hrow (Or.inr ⟨rfl, henabled⟩)
  have hexits : decision (ruleCovers primary c.toConnection) ruleTarget
      (parts.flatMap Added.exitRules) = none := by
    apply decision_flatMap_eq_none
    intro part hpart
    obtain ⟨r, hr, hroute⟩ := hroutes part hpart
    exact decision_routePart_exit
      (fun hat huser => hbridged ⟨r, hr, hat.1, hat.2, huser⟩) hroute
  have hingress : decision (ruleCovers primary c.toConnection) ruleTarget
      (parts.flatMap Added.ingressRules) =
        some (routed (blackholes outbounds) (relayTag crypto (nodeId, i))
          (decision (ruleCovers primary c.toConnection) ruleTarget rules)) := by
    apply decision_flatMap_of_agree
    · intro part hpart
      obtain ⟨r, -, hroute⟩ := hroutes part hpart
      exact decision_routePart_ingress hregular hdistinct hinbound henters hroute
    · obtain ⟨part, hpart, hroute⟩ := hown
      exact ⟨part, hpart,
        decision_routePart_own hregular henabled hexit hdistinct hinbound henters hroute⟩
  rw [hexpand, hexpand, hrules, decision_append, decision_append, hexits, hingress]
  rfl

/-- The bridge user of a route goes to the block that the rules choose for it, or else out of the
exit, if it enters at a primary listener. -/
theorem bridge_diverts (hout : compileRelays crypto h nodeId outbounds rules = .ok out)
    (hdicts : ∀ rule ∈ rules, rule.isDict = true) (htexts : ∀ rule ∈ rules, TextsAt rule "user")
    (hrow : h.relays.get? r.1 = some r.2)
    (hexit : r.2.exitNode = nodeId) (hphase : r.2.phase ≠ .deleting)
    (hreached : (relayDestination (h.estate crypto) nodeId r.2.exitInbound).isOk = true)
    (huser : c.user = some (mirrorEmail crypto nodeId r.2.identity))
    (hunique : ∀ r' ∈ h.relays.rows, r'.2.exitNode = nodeId →
      c.user = some (mirrorEmail crypto nodeId r'.2.identity) → r' = r)
    (hprimary : ∀ p, (p, c.inboundTag) ∉ shadows) :
    decision (ruleHolds c.toConnection) ruleTarget (out.2.map (expandRule shadows)) =
      some (routed (blackholes outbounds) (relayTag crypto r.1 ++ "-exit")
        (decision (ruleHolds c.toConnection) ruleTarget (rules.map (expandRule shadows)))) := by
  have hexpand : ∀ rules : List Doc,
      decision (ruleHolds c.toConnection) ruleTarget (rules.map (expandRule shadows)) =
        decision (ruleCovers none c.toConnection) ruleTarget rules := by
    intro rules
    apply decision_congr
    · exact fun rule _ => holds_expandRule fun p => by simp [hprimary p]
    · exact fun rule _ => ruleTarget_expandRule
  obtain ⟨parts, hrules, hroutes, hpart⟩ := compileRelays_concerned hout hrow (Or.inl hexit)
  have hown : ∀ part, routePart crypto h nodeId (blackholes outbounds) rules r = .ok part →
      decision (ruleCovers none c.toConnection) ruleTarget part.exitRules =
        some (routed (blackholes outbounds) (relayTag crypto r.1 ++ "-exit")
          (decision (ruleCovers none c.toConnection) ruleTarget rules)) := by
    intro part hpart
    obtain ⟨⟨-, hskipped⟩ | ⟨-, exit, hexitPart, hrules⟩, -⟩ := routePart_ok hpart
    · exact absurd (hskipped hexit) hphase
    · rw [hrules]
      exact decision_exitPart hdicts htexts huser (by rw [hexit]; exact hreached) hexitPart
  have hexits : decision (ruleCovers none c.toConnection) ruleTarget
      (parts.flatMap Added.exitRules) =
        some (routed (blackholes outbounds) (relayTag crypto r.1 ++ "-exit")
          (decision (ruleCovers none c.toConnection) ruleTarget rules)) := by
    apply decision_flatMap_of_agree
    · intro part hpart
      obtain ⟨r', hr', hroute⟩ := hroutes part hpart
      by_cases hsame : r' = r
      · subst hsame
        exact Or.inr (hown part hroute)
      · refine Or.inl (decision_routePart_exit ?_ hroute)
        exact fun hat huser' => hsame (hunique r' hr' hat.1 huser')
    · obtain ⟨part, hmem, hroute⟩ := hpart
      exact ⟨part, hmem, hown part hroute⟩
  rw [hexpand, hexpand, hrules, decision_append, decision_append, hexits]
  rfl

end Compiled

/-! ## A Hub with one route -/

/-- An inbound with a tunnel listener on the Node S. -/
def tunnelled (tag : String) (tunnel : Int) : Inbound :=
  { plainInbound tag ⟨443, https_inRange⟩ with
    panelMeta := .dict [("tunnelPorts", .dict [("node:S", .int tunnel)])] }

/-- An inbound that can be an exit. -/
def exitListener (tag : String) : Inbound :=
  { plainInbound tag ⟨8443, by decide⟩ with
    streamSettings := .dict [("network", .str "tcp"), ("security", .str "reality"),
      ("realitySettings", .dict [("privateKey", .str "key"),
        ("serverNames", .list [.str "www.example"]), ("shortIds", .list [.str ""])])] }

/-- The Nodes S and X, two inbounds, and one route from each inbound of a list on S. -/
def relayHub (first second : Inbound) (sources : List ℕ) (exit : String) : Hub where
  toCoreStore := { CoreStore.fresh with
    inbounds := (Table.empty.insert 1 first).insert 2 second }
  matrix := Table.empty
  limits := Table.empty
  nodes := (Table.empty.insert "S" ⟨⟨"https://s.example:8443", 8443⟩, true, "s.example", [1, 2]⟩).insert
    "X" ⟨⟨"https://x.example:8443", 8443⟩, true, "x.example", [2]⟩
  swaps := Table.empty
  nextSwap := 1
  relays := sources.foldl (fun relays i => relays.insert ("S", i)
    ⟨exit, 2, "relay-" ++ toString i, "credential", true, .enabled⟩) Table.empty
  warps := fun _ => none

/-- A connection without a user to a domain that rules list. -/
def visitAt (tag : String) (port : Port) : Visit where
  inboundTag := tag
  meets := fun key v => key = "domain" || (key = "localPort" && Port.ofDoc? v = some port)
  user := none
  port := port
  users_exact := by
    intro users
    simp
  port_exact := by
    intro p
    simp

/-- The outbounds of every installation. -/
def plainOutbounds : List Doc :=
  [.dict [("tag", .str "direct"), ("protocol", .str "freedom")],
    .dict [("tag", .str "block"), ("protocol", .str "blackhole")]]

/-- A rule that blocks, with a mark. -/
def blockRule (tags : Doc) (mark : String) (conditions : List (String × Doc)) : Doc :=
  .dict ([("inboundTag", tags)] ++ conditions ++
    [("outboundTag", .str "block"), ("ruleTag", .str mark)])

/-- The two inbounds of such a Hub. -/
theorem relayHub_inbounds {first second v : Inbound} {sources : List ℕ} {exit : String} {i : ℕ}
    (hget : (relayHub first second sources exit).inbounds.get? i = some v) :
    (i = 1 ∧ v = first) ∨ (i = 2 ∧ v = second) := by
  have hmem := Table.get?_eq_some_iff.mp hget
  have hrows : (relayHub first second sources exit).inbounds.rows = [(1, first), (2, second)] := rfl
  rw [hrows] at hmem
  simpa using hmem

/-- A route from an inbound with a tunnel listener. -/
def tunnelHub : Hub :=
  relayHub (tunnelled "in" 24445) (exitListener "exit") [1] "X"

/-- A rule that also covers the tunnel listener. -/
def adRule : Doc :=
  blockRule (.list [.str "in"]) "own" [("domain", .list [.str "ads"])]

theorem tunnelHub_distinct : Distinct tunnelHub "S" := by
  have hin : relayTags "S" 1 (tunnelled "in" 24445) = ["in", "dark-tunnel-1-24445"] := by
    decide +kernel
  have hexit : relayTags "S" 2 (exitListener "exit") = ["exit"] := by decide +kernel
  constructor
  · intro i j v w hv hw hne
    obtain ⟨rfl, rfl⟩ | ⟨rfl, rfl⟩ := relayHub_inbounds hv <;>
      obtain ⟨rfl, rfl⟩ | ⟨rfl, rfl⟩ := relayHub_inbounds hw
    · exact absurd rfl hne
    · rw [hin, hexit]
      simp
    · rw [hin, hexit]
      simp
    · exact absurd rfl hne
  · intro i v p hv hp
    obtain ⟨rfl, rfl⟩ | ⟨rfl, rfl⟩ := relayHub_inbounds hv
    · have hport : tunnelPortOn "S" (tunnelled "in" 24445) = some ⟨24445, by decide⟩ := by
        decide +kernel
      rw [hport] at hp
      cases hp
      exact ⟨by decide, by decide +kernel⟩
    · have hport : tunnelPortOn "S" (exitListener "exit") = none := by decide +kernel
      rw [hport] at hp
      cases hp

theorem relay_diverts_tunnel : ∃ out,
    compileRelays plainCrypto tunnelHub "S" plainOutbounds [adRule] = .ok out ∧
      decision (ruleHolds (visitAt "dark-tunnel-1-24445" ⟨24445, by decide⟩).toConnection)
          ruleTarget (out.2.map (expandRule [("in", "dark-tunnel-1-24445")])) =
        some (routed (blackholes plainOutbounds) (relayTag plainCrypto ("S", 1))
          (decision (ruleHolds (visitAt "dark-tunnel-1-24445" ⟨24445, by decide⟩).toConnection)
            ruleTarget ([adRule].map (expandRule [("in", "dark-tunnel-1-24445")])))) := by
  have hok : (compileRelays plainCrypto tunnelHub "S" plainOutbounds [adRule]).isOk = true := by
    decide +kernel
  cases hout : compileRelays plainCrypto tunnelHub "S" plainOutbounds [adRule] with
  | error e =>
      rw [hout] at hok
      cases hok
  | ok out =>
      have hport : tunnelPortOn "S" (tunnelled "in" 24445) = some ⟨24445, by decide⟩ := by
        decide +kernel
      have hregular : ∀ rule ∈ [adRule], Regular rule := by
        intro rule hrule
        obtain rfl := List.mem_singleton.mp hrule
        refine ⟨rfl, fun v hv => ⟨["in"], ?_⟩, fun hmatrix => ?_⟩
        · cases hv
          rfl
        · rfl
      have henters : Enters "S" 1 (tunnelled "in" 24445)
          (visitAt "dark-tunnel-1-24445" ⟨24445, by decide⟩) (some "in") :=
        .tunnel _ hport (by decide +kernel) rfl
      have hshadows : Shadows tunnelHub "S" [("in", "dark-tunnel-1-24445")] := by
        intro p t hmem
        cases List.mem_singleton.mp hmem
        exact ⟨1, tunnelled "in" 24445, _, rfl, rfl, hport, by decide +kernel⟩
      have hbridged : ¬Bridged plainCrypto tunnelHub "S"
          (visitAt "dark-tunnel-1-24445" ⟨24445, by decide⟩) := by
        rintro ⟨r, -, -, -, huser⟩
        cases huser
      refine ⟨out, rfl, relay_diverts hout hregular rfl rfl ?_ rfl henters tunnelHub_distinct
        hshadows ?_ hbridged⟩
      · decide
      · rintro p ⟨⟩
        exact List.mem_cons_self

/-- Where the rules send a connection on S, and where the compiled ones do. -/
def sends (h : Hub) (rules : List Doc) (tunnel : String) (c : Visit) :
    Option (Option Target × Option Target) :=
  (compileRelays plainCrypto h "S" plainOutbounds rules).toOption.map fun out =>
    (decision (ruleHolds c.toConnection) ruleTarget (rules.map (expandRule [("in", tunnel)])),
      decision (ruleHolds c.toConnection) ruleTarget (out.2.map (expandRule [("in", tunnel)])))

/-- No other routing and no other routes: a marked rule with a port of its own, a rule with a text
as its tag, a route to its own source, a primary listener with the tag of a tunnel listener, and a
tunnel listener at the primary port. -/
theorem diverted_elsewhere :
    (Enters "S" 1 (tunnelled "in" 24445) (visitAt "in" ⟨443, by decide⟩) none ∧
      sends tunnelHub [blockRule (.list [.str "in"]) "dark-matrix-own" [("localPort", .int 8000)]]
        "dark-tunnel-1-24445" (visitAt "in" ⟨443, by decide⟩) =
          some (none, some (.outbound "block"))) ∧
    (Enters "S" 1 (tunnelled "in" 24445) (visitAt "in" ⟨443, by decide⟩) none ∧
      sends tunnelHub [blockRule (.str "main") "own" []] "dark-tunnel-1-24445"
        (visitAt "in" ⟨443, by decide⟩) = some (none, some (.outbound "block"))) ∧
    (Enters "S" 1 (tunnelled "in" 24445) (visitAt "in" ⟨443, by decide⟩) none ∧
      sends (relayHub (tunnelled "in" 24445) (plainInbound "exit" ⟨8443, by decide⟩) [1] "S") []
        "dark-tunnel-1-24445" (visitAt "in" ⟨443, by decide⟩) = some (none, none)) ∧
    (Enters "S" 2 (plainInbound "dark-tunnel-1-24445" ⟨8443, by decide⟩)
        (visitAt "dark-tunnel-1-24445" ⟨8443, by decide⟩) none ∧
      sends (relayHub (tunnelled "in" 24445) (plainInbound "dark-tunnel-1-24445" ⟨8443, by decide⟩)
          [1, 2] "X") [] "dark-tunnel-1-24445" (visitAt "dark-tunnel-1-24445" ⟨8443, by decide⟩) =
        some (none, some (.outbound (relayTag plainCrypto ("S", 1))))) ∧
    (Enters "S" 1 (tunnelled "in" 443) (visitAt "dark-tunnel-1-443" ⟨443, by decide⟩) (some "in") ∧
      sends (relayHub (tunnelled "in" 443) (exitListener "exit") [1] "X")
        [blockRule (.list [.str "in"]) "dark-matrix-own" []] "dark-tunnel-1-443"
        (visitAt "dark-tunnel-1-443" ⟨443, by decide⟩) = some (none, some (.outbound "block"))) := by
  have hport : tunnelPortOn "S" (tunnelled "in" 443) = some ⟨443, by decide⟩ := by decide +kernel
  refine ⟨⟨.direct rfl rfl, ?_⟩, ⟨.direct rfl rfl, ?_⟩, ⟨.direct rfl rfl, ?_⟩, ⟨.direct rfl rfl, ?_⟩,
    ⟨.tunnel _ hport (by decide +kernel) rfl, ?_⟩⟩
  · decide +kernel
  · decide +kernel
  · decide +kernel
  · decide +kernel
  · decide +kernel

end Deployment
end DarkXray
