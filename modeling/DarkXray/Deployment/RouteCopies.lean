import Mathlib.Data.List.Infix
import DarkXray.Deployment.Payload

/-!
# The rules that a route keeps

An exit route puts copies of the rules in front of them: one copy of every rule that concerns
the route, limited to its own connections, that leads to the outbound of the route unless it
leads to a block.  No copy carries the mark of the Traffic Matrix, so that the copies of its
rules also reach the tunnel listeners.

Main results:

- Theorem {lit}`ruleTarget_scopedRule`: where a copy leads.
- Theorem {lit}`ruleCovers_copy`: which connections a copy covers.
- Theorem {lit}`decision_scopedPolicies`: what the copies decide.
- Theorems {lit}`matchesBy_user` and {lit}`matchesBy_inboundTag`: which connections the copies
  of the rules of the Traffic Matrix cover.
-/

namespace DarkXray
namespace Deployment

open Library Core Nodes

/-! ## Fields and conditions -/

/-- A connection arrives at a listener, or at the tunnel listener that belongs to it. -/
def comesTo (primary : Option String) (c : Connection) (tag : String) : Bool :=
  c.inboundTag = tag || primary = some tag

section Fields

variable {rule v : Doc} {key text : String} {c : Connection}

/-- A list of texts holds a text. -/
theorem any_str (tags : List String) (text : String) :
    ((tags.map Doc.str).any fun item => item.str? = some text) = decide (text ∈ tags) := by
  induction tags with
  | nil => rfl
  | cons tag tags ih =>
      rw [List.map_cons, List.any_cons, ih]
      simp [Doc.str, Doc.str?, eq_comm]

/-- A rule names the listeners of its list. -/
theorem namesInbound_of_list {tags : List String}
    (hget : rule.get? "inboundTag" = some (.list (tags.map Doc.str))) (p : String) :
    namesInbound rule p = decide (p ∈ tags) := by
  unfold namesInbound Doc.itemsAt
  rw [hget, ← any_str]
  simp [Doc.list?, tagText, Doc.str, Doc.str?, Atom.text, Function.comp_def]

/-- A connection comes to one of the listeners. -/
theorem any_comesTo {primary : Option String} {tags : List String} :
    tags.any (comesTo primary c) =
      (decide (c.inboundTag ∈ tags) || primary.elim false fun p => p ∈ tags) := by
  induction tags with
  | nil => cases primary <;> rfl
  | cons tag tags ih =>
      rw [List.any_cons, ih, comesTo]
      cases primary with
      | none => simp
      | some p =>
          simp only [Option.some.injEq, Option.elim_some, List.mem_cons, Bool.decide_or]
          ac_rfl

/-- A rule that is not marked lists the listener of a connection, or names its inbound. -/
theorem listens_of_list {primary : Option String} {tags : List String}
    (hget : rule.get? "inboundTag" = some (.list (tags.map Doc.str))) :
    (listsTag rule c.inboundTag || primary.elim false (namesInbound rule)) =
      tags.any (comesTo primary c) := by
  have hlists : listsTag rule c.inboundTag = decide (c.inboundTag ∈ tags) := by
    rw [listsTag, hget, Option.elim_some, Doc.list?, Option.getD_some, any_str]
  rw [any_comesTo, hlists]
  cases primary with
  | none => rfl
  | some p => rw [Option.elim_some, Option.elim_some, namesInbound_of_list hget]

/-- A field that is new is one more condition. -/
theorem conditionsHold_set_new (hkey : key ∉ noConditions) (hdict : rule.isDict = true)
    (hnone : rule.get? key = none) :
    conditionsHold (rule.set key v) c = (conditionsHold rule c && c.meets key v) := by
  cases rule with
  | atom a => cases hdict
  | list items => cases hdict
  | dict fields =>
      have hnone' : Doc.field? fields key = none := hnone
      have hall : ((Doc.setField key v fields).all fun field =>
          decide (field.1 ∈ noConditions) || c.meets field.1 field.2) =
          ((fields.all fun field => decide (field.1 ∈ noConditions) || c.meets field.1 field.2) &&
            c.meets key v) := by
        clear hnone hdict
        induction fields with
        | nil => simp [Doc.setField, hkey]
        | cons field fields ih =>
            rw [Doc.field?_cons] at hnone'
            by_cases hfield : field.1 = key
            · rw [if_pos hfield] at hnone'
              cases hnone'
            · rw [if_neg hfield] at hnone'
              rw [Doc.setField, if_neg hfield, List.all_cons, List.all_cons, ih hnone',
                Bool.and_assoc]
      exact hall

/-- A rule that applies meets each of its conditions. -/
theorem meets_of_conditionsHold {old : Doc} (hkey : key ∉ noConditions)
    (hget : rule.get? key = some old) (hholds : conditionsHold rule c = true) :
    c.meets key old = true := by
  cases rule with
  | atom a => cases hget
  | list items => cases hget
  | dict fields =>
      obtain ⟨field, hfind, hvalue⟩ := Option.map_eq_some_iff.mp hget
      have hmem := List.mem_of_find?_eq_some hfind
      have hname : field.1 = key := by simpa using List.find?_some hfind
      have hfield := List.all_eq_true.mp hholds field hmem
      rw [hname, hvalue] at hfield
      simpa [hkey] using hfield

/-- Fields that are no conditions may be removed. -/
theorem conditionsHold_erase (hkey : key ∈ noConditions) :
    conditionsHold (rule.erase key) c = conditionsHold rule c := by
  cases rule with
  | atom a => rfl
  | list items => rfl
  | dict fields =>
      have hall : ((fields.filter fun field => field.1 ≠ key).all fun field =>
          decide (field.1 ∈ noConditions) || c.meets field.1 field.2) =
          fields.all fun field => decide (field.1 ∈ noConditions) || c.meets field.1 field.2 := by
        induction fields with
        | nil => rfl
        | cons field fields ih =>
            by_cases hfield : field.1 = key
            · rw [List.filter_cons_of_neg (by simpa using hfield), ih, List.all_cons, hfield]
              simp [hkey]
            · rw [List.filter_cons_of_pos (by simpa using hfield), List.all_cons, List.all_cons, ih]
      exact hall

end Fields

/-! ## Marked rules -/

section Marks

/-- A rule of a route is not marked. -/
theorem unmarked_relay (rest : String) :
    "dark-matrix-".toList.isPrefixOf ("dark-relay-" ++ rest).toList = false := by
  simp only [String.toList_append]
  rfl

/-- The mark of a swap route is not that of the Traffic Matrix. -/
theorem unmarked_swap (rest : String) :
    "dark-matrix-".toList.isPrefixOf ("dark-swap-" ++ rest).toList = false := by
  simp only [String.toList_append]
  rfl

/-- None of these rules is marked as one of the Traffic Matrix. -/
def Unmarked (rules : List Doc) : Prop :=
  ∀ rule ∈ rules, isMatrixRule rule = false

/-- No rules are unmarked. -/
theorem unmarked_nil : Unmarked [] := by
  intro rule hrule
  cases hrule

/-- Unmarked rules together are unmarked. -/
theorem Unmarked.append {rules rules' : List Doc} (h : Unmarked rules) (h' : Unmarked rules') :
    Unmarked (rules ++ rules') := by
  intro rule hrule
  rcases List.mem_append.mp hrule with hleft | hright
  · exact h rule hleft
  · exact h' rule hright

/-- Unmarked parts are unmarked together. -/
theorem unmarked_flatMap {α : Type*} {f : α → List Doc} {parts : List α}
    (h : ∀ a ∈ parts, Unmarked (f a)) : Unmarked (parts.flatMap f) := by
  intro rule hrule
  obtain ⟨a, ha, hmem⟩ := List.mem_flatMap.mp hrule
  exact h a ha rule hmem

/-- A rule with the mark of a route. -/
theorem unmarked_single {rule : Doc} {rest : String}
    (h : rule.get? "ruleTag" = some (.str ("dark-relay-" ++ rest))) : Unmarked [rule] := by
  intro rule' hrule
  obtain rfl := List.mem_singleton.mp hrule
  rw [isMatrixRule_ruleTag h]
  exact unmarked_relay rest

/-- The stored rules without those of the Traffic Matrix are not marked. -/
theorem baseRules_unmarked (routing : Doc) : Unmarked (baseRules routing) := by
  intro rule hrule
  simpa using (List.mem_filter.mp hrule).2

end Marks

/-! ## One copy of a rule -/

/-- A target is a block. -/
def targetBlocks (blocked : List Doc) : Target → Bool
  | .outbound tag => blocked.any fun out => outboundTagOf out = tag
  | .balancer _ => false
  | .none => false

/-- What a route makes of a target. -/
def divertTarget (blocked : List Doc) (selected : String) (t : Target) : Target :=
  if targetBlocks blocked t then t else .outbound selected

/-- The conditions of a copy. -/
def scopedConditions (key : String) (inbound : Option Inbound) (original : Doc)
    (common : List String) : Doc :=
  let rule := original.set key (.list (common.map Doc.str))
  match inbound with
  | some v => if isMatrixRule original && common = [v.tag] then rule.set "localPort" v.port.doc
      else rule
  | none => rule

/-- The copy of a rule that a route keeps covers a connection. -/
def copyCovers (key : String) (values : List String) (inbound : Option Inbound)
    (primary : Option String) (c : Connection) (original : Doc) : Bool :=
  match commonValues original key values with
  | .error _ => false
  | .ok common =>
      let copy := scopedConditions key inbound original common
      common ≠ [] && ((listsTag copy c.inboundTag || primary.elim false (namesInbound copy)) &&
        conditionsHold copy c)

section Copies

variable {blocked : List Doc} {tag selected key rest : String} {inbound : Option Inbound}
  {original : Doc} {common values : List String} {n : ℕ} {c : Connection} {primary : Option String}

/-- A copy is its conditions with a target. -/
theorem scopedRule_eq : scopedRule blocked tag selected key inbound original common n =
    (if leadsToBlock blocked original then scopedConditions key inbound original common
      else ((scopedConditions key inbound original common).erase "balancerTag").set "outboundTag"
        (.str selected)).set "ruleTag" (.str (tag ++ "-policy-" ++ toString n)) :=
  rfl

/-- A rule leads to a block exactly if its target does. -/
theorem leadsToBlock_eq : leadsToBlock blocked original = targetBlocks blocked (ruleTarget original) := by
  unfold leadsToBlock ruleTarget
  cases (original.get? "outboundTag").bind Doc.str? with
  | some t => rfl
  | none =>
      cases (original.get? "balancerTag").bind Doc.str? with
      | some t => rfl
      | none => rfl

/-- The conditions of a copy are a dictionary if the rule is one. -/
theorem scopedConditions_isDict :
    (scopedConditions key inbound original common).isDict = original.isDict := by
  unfold scopedConditions
  cases inbound with
  | none => exact Doc.isDict_set _ _ _
  | some v =>
      dsimp only
      split
      · rw [Doc.isDict_set, Doc.isDict_set]
      · exact Doc.isDict_set _ _ _

/-- A copy keeps the other fields. -/
theorem scopedConditions_get? {field : String} (hkey : key ≠ field) (hport : "localPort" ≠ field) :
    (scopedConditions key inbound original common).get? field = original.get? field := by
  unfold scopedConditions
  cases inbound with
  | none => exact Doc.get?_set_of_ne _ hkey _
  | some v =>
      dsimp only
      split
      · rw [Doc.get?_set_of_ne _ hport, Doc.get?_set_of_ne _ hkey]
      · rw [Doc.get?_set_of_ne _ hkey]

/-- A copy lists what it has in common with the route. -/
theorem scopedConditions_key (hdict : original.isDict = true) (hport : "localPort" ≠ key) :
    (scopedConditions key inbound original common).get? key =
      some (.list (common.map Doc.str)) := by
  have hset : (original.set key (.list (common.map Doc.str))).get? key =
      some (.list (common.map Doc.str)) := by
    rw [Doc.get?_set hdict, if_pos rfl]
  unfold scopedConditions
  cases inbound with
  | none => exact hset
  | some v =>
      dsimp only
      split
      · rw [Doc.get?_set_of_ne _ hport, hset]
      · exact hset

/-- The copy of a rule leads where the rule leads, if that is a block, and to the route
otherwise. -/
theorem ruleTarget_scopedRule (hdict : original.isDict = true)
    (hkey : key ≠ "outboundTag" ∧ key ≠ "balancerTag") :
    ruleTarget (scopedRule blocked tag selected key inbound original common n) =
      divertTarget blocked selected (ruleTarget original) := by
  have herased : ((scopedConditions key inbound original common).erase "balancerTag").isDict =
      true := by
    rw [Doc.isDict_erase, scopedConditions_isDict, hdict]
  rw [scopedRule_eq, leadsToBlock_eq, divertTarget]
  by_cases hblocks : targetBlocks blocked (ruleTarget original) = true
  · rw [if_pos hblocks, if_pos hblocks]
    unfold ruleTarget
    rw [Doc.get?_set_of_ne _ (by decide), Doc.get?_set_of_ne _ (by decide),
      scopedConditions_get? hkey.1 (by decide), scopedConditions_get? hkey.2 (by decide)]
  · rw [if_neg hblocks, if_neg hblocks]
    unfold ruleTarget
    rw [Doc.get?_set_of_ne _ (by decide), Doc.get?_set herased, if_pos rfl]
    rfl

/-- Its conditions are those. -/
theorem conditionsHold_scopedRule :
    conditionsHold (scopedRule blocked tag selected key inbound original common n) c =
      conditionsHold (scopedConditions key inbound original common) c := by
  rw [scopedRule_eq, conditionsHold_set (by decide)]
  split
  · rfl
  · rw [conditionsHold_set (by decide), conditionsHold_erase (by decide)]

/-- A copy with its target keeps the other fields. -/
theorem scopedRule_get? (field : String)
    (hfield : field ∉ ["outboundTag", "balancerTag", "ruleTag"]) :
    (scopedRule blocked tag selected key inbound original common n).get? field =
      (scopedConditions key inbound original common).get? field := by
  simp only [List.mem_cons, List.not_mem_nil, or_false, not_or] at hfield
  rw [scopedRule_eq, Doc.get?_set_of_ne _ (Ne.symm hfield.2.2)]
  split
  · rfl
  · rw [Doc.get?_set_of_ne _ (Ne.symm hfield.1), Doc.get?_erase, if_neg (Ne.symm hfield.2.1)]

/-- The rules that a route keeps carry its own mark. -/
theorem scopedRule_ruleTag (hdict : original.isDict = true) :
    (scopedRule blocked tag selected key inbound original common n).get? "ruleTag" =
      some (.str (tag ++ "-policy-" ++ toString n)) := by
  rw [scopedRule_eq, Doc.get?_set, if_pos rfl]
  split
  · rw [scopedConditions_isDict, hdict]
  · rw [Doc.isDict_set, Doc.isDict_erase, scopedConditions_isDict, hdict]

/-- No copy is marked as a rule of the Traffic Matrix. -/
theorem scopedRule_unmarked (hdict : original.isDict = true) (htag : tag = "dark-relay-" ++ rest) :
    isMatrixRule (scopedRule blocked tag selected key inbound original common n) = false := by
  rw [isMatrixRule_ruleTag (scopedRule_ruleTag hdict), htag, String.append_assoc,
    String.append_assoc]
  exact unmarked_relay _

/-- A copy is made of an object. -/
theorem isDict_of_commonValues (h : commonValues original key values = .ok common) :
    original.isDict = true := by
  unfold commonValues at h
  by_contra hno
  rw [Bool.not_eq_true] at hno
  rw [if_pos (by rw [hno]; rfl)] at h
  cases h

/-- A copy keeps some of the values of the route. -/
theorem commonValues_filter (h : commonValues original key values = .ok common) :
    ∃ p : String → Bool, common = values.filter p := by
  unfold commonValues at h
  split at h
  · cases h
  cases hget : original.get? key with
  | none =>
      rw [hget] at h
      cases h
      exact ⟨fun _ => true, by simp⟩
  | some v =>
      rw [hget] at h
      cases v with
      | list items =>
          cases h
          exact ⟨_, rfl⟩
      | dict fields =>
          cases h
          exact ⟨_, rfl⟩
      | atom a =>
          cases a with
          | str s =>
              cases h
              exact ⟨_, rfl⟩
          | _ => cases h

/-- A copy for one user covers no connection of another one. -/
theorem copyCovers_user {email : String}
    (huser : c.meets "user" (.list ([email].map Doc.str)) = false) :
    copyCovers "user" [email] none primary c original = false := by
  unfold copyCovers
  cases hcommon : commonValues original "user" [email] with
  | error e => rfl
  | ok common =>
      dsimp only
      by_cases hempty : common = []
      · simp [hempty]
      · have hone : common = [email] := by
          obtain ⟨p, rfl⟩ := commonValues_filter hcommon
          cases hp : p email with
          | true => simp [hp]
          | false => simp [hp] at hempty
        subst hone
        have hholds : conditionsHold (scopedConditions "user" none original [email]) c = false := by
          rw [Bool.eq_false_iff]
          intro hholds
          have hmeets := meets_of_conditionsHold (by decide)
            (scopedConditions_key (isDict_of_commonValues hcommon) (by decide)) hholds
          rw [huser] at hmeets
          cases hmeets
        rw [hholds, Bool.and_false, Bool.and_false]

/-- A copy covers no connection that comes to none of the listeners of the route. -/
theorem copyCovers_elsewhere (hnone : values.any (comesTo primary c) = false) :
    copyCovers "inboundTag" values inbound primary c original = false := by
  unfold copyCovers
  cases hcommon : commonValues original "inboundTag" values with
  | error e => rfl
  | ok common =>
      have hfield : (scopedConditions "inboundTag" inbound original common).get? "inboundTag" =
          some (.list (common.map Doc.str)) :=
        scopedConditions_key (isDict_of_commonValues hcommon) (by decide)
      have hany : common.any (comesTo primary c) = false := by
        obtain ⟨p, rfl⟩ := commonValues_filter hcommon
        rw [List.any_eq_false] at hnone ⊢
        exact fun t ht => hnone t (List.mem_filter.mp ht).1
      dsimp only
      rw [listens_of_list hfield, hany, Bool.false_and, Bool.and_false]

/-- Which connections a copy covers. -/
theorem ruleCovers_copy (htag : tag = "dark-relay-" ++ rest)
    (hcommon : commonValues original key values = .ok common) (hne : common ≠ []) :
    ruleCovers primary c (scopedRule blocked tag selected key inbound original common n) =
      copyCovers key values inbound primary c original := by
  have hfield : (scopedRule blocked tag selected key inbound original common n).get? "inboundTag" =
      (scopedConditions key inbound original common).get? "inboundTag" :=
    scopedRule_get? _ (by decide)
  have hlists : ∀ t, listsTag (scopedRule blocked tag selected key inbound original common n) t =
      listsTag (scopedConditions key inbound original common) t := by
    intro t
    rw [listsTag, hfield, listsTag]
  have hnames : namesInbound (scopedRule blocked tag selected key inbound original common n) =
      namesInbound (scopedConditions key inbound original common) := by
    funext t
    rw [namesInbound, Doc.itemsAt, hfield, namesInbound, Doc.itemsAt]
  rw [ruleCovers, scopedRule_unmarked (isDict_of_commonValues hcommon) htag,
    conditionsHold_scopedRule, hlists, hnames, copyCovers, hcommon]
  simp [hne]

end Copies

/-! ## All copies of a route -/

section Policies

variable {blocked : List Doc} {tag selected key rest : String} {inbound : Option Inbound}
  {values : List String} {rules policies : List Doc} {n : ℕ} {c : Connection}
  {primary : Option String}

/-- The copies for a route are unmarked. -/
theorem scopedPolicies_unmarked (htag : tag = "dark-relay-" ++ rest)
    (h : scopedPolicies blocked tag selected key values inbound rules n = .ok policies) :
    Unmarked policies := by
  induction rules generalizing n policies with
  | nil =>
      cases h
      exact unmarked_nil
  | cons original rules ih =>
      unfold scopedPolicies at h
      obtain ⟨common, hcommon, h⟩ := except_bind_ok_iff.mp h
      by_cases hempty : common = []
      · rw [if_pos hempty] at h
        exact ih h
      · rw [if_neg hempty] at h
        obtain ⟨later, hlater, h⟩ := except_bind_ok_iff.mp h
        rw [except_pure_ok_iff] at h
        subst h
        intro rule hrule
        rcases List.mem_cons.mp hrule with rfl | hmem
        · exact scopedRule_unmarked (isDict_of_commonValues hcommon) htag
        · exact ih hlater rule hmem

/-- The copies decide as the rules do that they are made of, with the outbound of the route in
place of every target that is no block. -/
theorem decision_scopedPolicies (hkey : key ≠ "outboundTag" ∧ key ≠ "balancerTag")
    (htag : tag = "dark-relay-" ++ rest)
    (h : scopedPolicies blocked tag selected key values inbound rules n = .ok policies) :
    decision (ruleCovers primary c) ruleTarget policies =
      (decision (copyCovers key values inbound primary c) ruleTarget rules).map
        (divertTarget blocked selected) := by
  induction rules generalizing n policies with
  | nil =>
      cases h
      rfl
  | cons original rules ih =>
      unfold scopedPolicies at h
      obtain ⟨common, hcommon, h⟩ := except_bind_ok_iff.mp h
      by_cases hempty : common = []
      · rw [if_pos hempty] at h
        have hskipped : copyCovers key values inbound primary c original = false := by
          rw [copyCovers, hcommon]
          simp [hempty]
        rw [decision_cons, hskipped, if_neg Bool.false_ne_true]
        exact ih h
      · rw [if_neg hempty] at h
        obtain ⟨later, hlater, h⟩ := except_bind_ok_iff.mp h
        rw [except_pure_ok_iff] at h
        subst h
        rw [decision_cons, decision_cons, ruleCovers_copy htag hcommon hempty,
          ruleTarget_scopedRule (isDict_of_commonValues hcommon) hkey, ih hlater]
        split <;> rfl

end Policies

/-! ## Copies of the rules of the Traffic Matrix -/

/-- The tags that a route takes the connections of. -/
def relayTags (nodeId : String) (i : ℕ) (inbound : Inbound) : List String :=
  inbound.tag :: ((tunnelPortOn nodeId inbound).map (tunnelTag i)).toList

section MatrixCopies

variable {digest : String → String} {scope tag ruleTag outbound : String} {c : Connection}
  {primary : Option String} {conditions : List (String × Doc)}

/-- The rules of the Traffic Matrix have no other fields than these. -/
theorem matrixRule_get?_none {key : String}
    (hconditions : ∀ field ∈ conditions, field.1 ∈ ["domain", "network"])
    (hkey : key ∉ ["type", "inboundTag", "ruleTag", "outboundTag", "domain", "network"]) :
    (matrixRule tag ruleTag conditions outbound).get? key = none := by
  simp only [List.mem_cons, List.not_mem_nil, or_false, not_or] at hkey
  obtain ⟨htype, hinbound, hrule, houtbound, hdomain, hnetwork⟩ := hkey
  have hlast : Doc.field? (conditions ++ [("outboundTag", Doc.str outbound)]) key = none := by
    induction conditions with
    | nil =>
        rw [List.nil_append, Doc.field?_cons, if_neg (Ne.symm houtbound)]
        rfl
    | cons field conditions ih =>
        have hne : field.1 ≠ key := by
          intro heq
          have hfield := hconditions field List.mem_cons_self
          rw [heq] at hfield
          simp [hdomain, hnetwork] at hfield
        rw [List.cons_append, Doc.field?_cons, if_neg hne]
        exact ih fun f hf => hconditions f (List.mem_cons_of_mem _ hf)
  simp [matrixRule, Doc.get?, Doc.field?_cons, hlast, Ne.symm htype, Ne.symm hinbound,
    Ne.symm hrule]

/-- At its exit a route keeps all rules of the Traffic Matrix for its own user. -/
theorem matchesBy_user (email : String) :
    MatchesBy digest scope c (copyCovers "user" [email] none primary c)
      fun tag => comesTo primary c tag && c.meets "user" (.list ([email].map Doc.str)) := by
  intro tag i path kind outbound conditions hconditions
  have hnone : (matrixRule tag (managedRuleTag digest scope i path kind) conditions outbound).get?
      "user" = none := matrixRule_get?_none hconditions (by decide)
  have hcommon : commonValues
      (matrixRule tag (managedRuleTag digest scope i path kind) conditions outbound) "user"
        [email] = .ok [email] := by
    rw [commonValues, hnone]
    rfl
  have hfield : (scopedConditions "user" none
      (matrixRule tag (managedRuleTag digest scope i path kind) conditions outbound) [email]).get?
        "inboundTag" = some (.list ([tag].map Doc.str)) :=
    scopedConditions_get? (by decide) (by decide)
  have hholds : conditionsHold (scopedConditions "user" none
      (matrixRule tag (managedRuleTag digest scope i path kind) conditions outbound) [email]) c =
        ((conditions.all fun field => c.meets field.1 field.2) &&
          c.meets "user" (.list ([email].map Doc.str))) := by
    rw [← conditionsHold_matrixRule hconditions]
    exact conditionsHold_set_new (by decide) rfl hnone
  rw [copyCovers, hcommon]
  dsimp only
  rw [listens_of_list hfield, hholds, List.any_cons, List.any_nil, Bool.or_false, Bool.and_assoc,
    Bool.and_comm (c.meets _ _)]
  rfl

/-- The policies for one of the listeners of a route that arrive there; those for the primary
listener alone are limited to its port. -/
def keptListener (tags : List String) (inbound : Inbound) (primary : Option String)
    (c : Connection) (tag : String) : Bool :=
  tag ∈ tags && comesTo primary c tag &&
    (tags.filter (· = tag) ≠ [inbound.tag] || c.meets "localPort" inbound.port.doc)

/-- A connection comes to the own listener among the tags if the tag is one of them. -/
theorem any_filter_comesTo (tags : List String) (tag : String) :
    (tags.filter (· = tag)).any (comesTo primary c) =
      (decide (tag ∈ tags) && comesTo primary c tag) := by
  rw [Bool.eq_iff_iff, List.any_eq_true]
  simp only [List.mem_filter, decide_eq_true_eq, Bool.and_eq_true]
  constructor
  · intro h
    obtain ⟨t, ⟨hmem, heq⟩, hcomes⟩ := h
    subst heq
    exact ⟨hmem, hcomes⟩
  · intro h
    exact ⟨tag, ⟨h.1, rfl⟩, h.2⟩

/-- At its source a route keeps the rules of the Traffic Matrix for its own listeners. -/
theorem matchesBy_inboundTag (tags : List String) (inbound : Inbound) :
    MatchesBy digest scope c (copyCovers "inboundTag" tags (some inbound) primary c)
      (keptListener tags inbound primary c) := by
  intro tag i path kind outbound conditions hconditions
  have hcommon : commonValues
      (matrixRule tag (managedRuleTag digest scope i path kind) conditions outbound) "inboundTag"
        tags = .ok (tags.filter (· = tag)) := by
    simp [commonValues, matrixRule, Doc.isDict, Doc.get?, Doc.field?_cons, Doc.str?, Doc.str,
      eq_comm]
  have hfield : (scopedConditions "inboundTag" (some inbound)
      (matrixRule tag (managedRuleTag digest scope i path kind) conditions outbound)
        (tags.filter (· = tag))).get? "inboundTag" =
          some (.list ((tags.filter (· = tag)).map Doc.str)) :=
    scopedConditions_key rfl (by decide)
  have hholds : conditionsHold (scopedConditions "inboundTag" (some inbound)
      (matrixRule tag (managedRuleTag digest scope i path kind) conditions outbound)
        (tags.filter (· = tag))) c = ((conditions.all fun field => c.meets field.1 field.2) &&
          (tags.filter (· = tag) ≠ [inbound.tag] || c.meets "localPort" inbound.port.doc)) := by
    have hset : ((matrixRule tag (managedRuleTag digest scope i path kind) conditions
        outbound).set "inboundTag" (.list ((tags.filter (· = tag)).map Doc.str))).get? "localPort" =
          none := by
      rw [Doc.get?_set_of_ne _ (by decide)]
      exact matrixRule_get?_none hconditions (by decide)
    have hplain : conditionsHold (matrixRule tag (managedRuleTag digest scope i path kind)
        conditions outbound) c = conditions.all fun field => c.meets field.1 field.2 :=
      conditionsHold_matrixRule hconditions
    rw [← hplain, scopedConditions, isMatrixRule_matrixRule, Bool.true_and]
    by_cases hone : tags.filter (· = tag) = [inbound.tag]
    · rw [if_pos (decide_eq_true hone), conditionsHold_set_new (by decide) rfl hset,
        conditionsHold_set (by decide)]
      simp [hone]
    · rw [if_neg (by simpa using hone), conditionsHold_set (by decide)]
      simp [hone]
  rw [copyCovers, hcommon]
  dsimp only
  rw [listens_of_list hfield, any_filter_comesTo, hholds, keptListener]
  by_cases hmem : tag ∈ tags
  · have hne : tags.filter (· = tag) ≠ [] := List.ne_nil_of_mem (List.mem_filter.mpr ⟨hmem, by simp⟩)
    rw [decide_eq_true hne, Bool.true_and, Bool.and_comm (List.all _ _), Bool.and_assoc]
    simp only [Bool.and_assoc]
  · simp [hmem]

end MatrixCopies

end Deployment
end DarkXray
