import DarkXray.Core.BuildConfig
import DarkXray.Library.Precedence

/-!
# The Traffic Matrix and the compiled rules

Each inbound has one policy for each runtime and access path.  {lit}`routing_for_scope`
compiles the policies of a runtime to rules in front of the stored ones, and
{lit}`build_config` extends the other rules to the tunnel listeners of the inbounds that
they name.

Main results:

- Theorem {lit}`decision_compileRules_of`: what the rules of one policy decide, for any way to
  match rules by listener and conditions.
- Theorems {lit}`decision_matrixRules_of` and {lit}`decision_matrixRules`: what the rules of all
  policies of a runtime decide.
- Theorem {lit}`holds_expandRule`: when a rule applies that has been extended.
-/

namespace DarkXray
namespace Core

open Library

/-! ## Policies -/

/-- {lit}`ACCESS_PATHS`. -/
inductive AccessPath where
  | direct
  | tunnel
deriving DecidableEq, Repr

/-- The name of an access path. -/
def AccessPath.name : AccessPath → String
  | direct => "direct"
  | tunnel => "tunnel"

/-- {lit}`POLICIES`. -/
inductive MatrixPolicy where
  | normal
  | warpAi
  | warpAll
  | adblock
  | warpAiAdblock
  | warpAllAdblock
  | custom
deriving DecidableEq, Repr

/-- What a policy sends through the WARP outbound. -/
inductive WarpMode where
  | off
  | ai
  | all
deriving DecidableEq, Repr

/-- {lit}`policy_parts`. -/
def MatrixPolicy.parts : MatrixPolicy → Bool × WarpMode
  | normal => (false, .off)
  | warpAi => (false, .ai)
  | warpAll => (false, .all)
  | adblock => (true, .off)
  | warpAiAdblock => (true, .ai)
  | warpAllAdblock => (true, .all)
  | custom => (false, .off)

/-- {lit}`AI_DOMAIN_MATCHERS`. -/
def aiDomainMatchers : Doc :=
  .list (["domain:openai.com", "domain:chatgpt.com", "domain:oaiusercontent.com",
    "domain:oaistatic.com", "domain:openaiapi-site.azureedge.net"].map Doc.str)

/-- {lit}`ADBLOCK_DOMAIN_MATCHERS`. -/
def adblockDomainMatchers : Doc :=
  .list (["geosite:category-ads-all", "domain:doubleclick.net", "domain:googleadservices.com",
    "domain:googlesyndication.com", "domain:adservice.google.com",
    "domain:ads-twitter.com"].map Doc.str)

/-! ## Compiled rules -/

/-- {lit}`managed_rule_tag`; {lit}`digest` is the start of a hash. -/
def managedRuleTag (digest : String → String) (scope : String) (inboundId : ℕ)
    (path : AccessPath) (kind : String) : String :=
  "dark-matrix-" ++ digest (scope ++ ":" ++ toString inboundId ++ ":" ++ path.name ++ "|" ++ kind) ++
    "-" ++ kind

/-- A rule for the connections of one listener. -/
def matrixRule (tag ruleTag : String) (conditions : List (String × Doc)) (outbound : String) : Doc :=
  .dict ([("type", Doc.str "field"), ("inboundTag", .list [.str tag]), ("ruleTag", .str ruleTag)] ++
    conditions ++ [("outboundTag", .str outbound)])

/-- The tag of the listener that a policy is about; without one there are no rules. -/
def matrixTag (py : Builtins) (inboundId : ℕ) (path : AccessPath) (inboundTag : String)
    (tunnelPort : Option Port) : Option String :=
  if py.strip inboundTag = "" then none
  else
    match path with
    | .direct => some (py.strip inboundTag)
    | .tunnel => tunnelPort.map (tunnelTag inboundId)

/-- {lit}`compile_rules`; an error leaves no rules. -/
def compileRules (py : Builtins) (digest : String → String) (scope : String) (inboundId : ℕ)
    (path : AccessPath) (policy : MatrixPolicy) (inboundTag : String) (tunnelPort : Option Port) :
    List Doc :=
  if policy = .custom then []
  else
    match matrixTag py inboundId path inboundTag tunnelPort with
    | none => []
    | some tag =>
        let ruleTag := managedRuleTag digest scope inboundId path
        let blocked :=
          if policy.parts.1 then
            [matrixRule tag (ruleTag "adblock") [("domain", adblockDomainMatchers)] "block"]
          else []
        let rest :=
          match policy.parts.2 with
          | .ai =>
              [matrixRule tag (ruleTag "warp-ai") [("domain", aiDomainMatchers)] "warp",
                matrixRule tag (ruleTag "direct") [] "direct"]
          | .all => [matrixRule tag (ruleTag "warp-all") [("network", .str "tcp,udp")] "warp"]
          | .off => [matrixRule tag (ruleTag "direct") [] "direct"]
        blocked ++ rest

/-- {lit}`raw_ports.get(runtime)`; stored ports are numbers in range. -/
def portAt (panelMeta : Doc) (runtime : String) : Option Port :=
  ((panelMeta.get? "tunnelPorts").bind (·.get? runtime)).bind Port.ofDoc?

/-- The engine with its table {lit}`traffic_matrix`. -/
structure MatrixStore extends CoreStore where
  matrix : Table (String × ℕ × AccessPath) MatrixPolicy

/-- A row comes before another one. -/
def matrixBefore (a b : (String × ℕ × AccessPath) × MatrixPolicy) : Bool :=
  a.1.2.1 < b.1.2.1 || (a.1.2.1 = b.1.2.1 && (a.1.2.2 = .direct || b.1.2.2 = .tunnel))

/-- {lit}`traffic_matrix_rows` of a scope. -/
def MatrixStore.matrixRows (s : MatrixStore) (scope : String) :
    List ((String × ℕ × AccessPath) × MatrixPolicy) :=
  (s.matrix.rows.filter fun row => row.1.1 = scope).insertionSort fun a b => matrixBefore a b

/-- The runtime of a scope. -/
def runtimeOf (scope : String) : String :=
  if scope = "hub" then "local" else scope

/-- The rules of one row. -/
def MatrixStore.rowRules (py : Builtins) (digest : String → String) (s : MatrixStore)
    (scope : String) (row : (String × ℕ × AccessPath) × MatrixPolicy) : List Doc :=
  match s.inbounds.get? row.1.2.1 with
  | none => []
  | some inbound =>
      if inbound.enable then
        compileRules py digest scope row.1.2.1 row.1.2.2 row.2 inbound.tag
          (portAt inbound.panelMeta (runtimeOf scope))
      else []

/-- The rules of all policies of a scope. -/
def MatrixStore.matrixRules (py : Builtins) (digest : String → String) (s : MatrixStore)
    (scope : String) : List Doc :=
  (s.matrixRows scope).flatMap (s.rowRules py digest scope)

/-- {lit}`str(r.get('ruleTag') or '')`; the text of an array or object begins with a bracket. -/
def ruleTagOf (rule : Doc) : String :=
  match rule.get? "ruleTag" with
  | some (.atom a) => if a.truthy then a.text else ""
  | _ => ""

/-- The rule is marked as one of the Traffic Matrix. -/
def isMatrixRule (rule : Doc) : Bool :=
  "dark-matrix-".toList.isPrefixOf (ruleTagOf rule).toList

/-- The stored rules without those of the Traffic Matrix. -/
def baseRules (routing : Doc) : List Doc :=
  (routing.itemsAt "rules").filter fun rule => !isMatrixRule rule

/-- {lit}`routing_for_scope`. -/
def MatrixStore.routingForScope (py : Builtins) (digest : String → String) (s : MatrixStore)
    (scope : String) (routing : Doc) : Doc :=
  routing.set "rules" (.list (s.matrixRules py digest scope ++ baseRules routing))

/-- {lit}`str(tag)` of a tag in a rule. -/
def tagText : Doc → Option String
  | .atom a => some a.text
  | _ => none

/-- The tags of a rule with the tunnel listeners of the inbounds that they name. -/
def expandTags (shadows : List (String × String)) (tags : List Doc) : List Doc :=
  let added := (tags.flatMap fun tag => shadows.filter fun s => tagText tag = some s.1).map Prod.snd
  added.foldl (fun expanded shadow =>
    if expanded.any fun d => d.str? = some shadow then expanded else expanded ++ [.str shadow]) tags

/-- The loop of {lit}`build_config` over the rules. -/
def expandRule (shadows : List (String × String)) (rule : Doc) : Doc :=
  match (rule.get? "inboundTag").bind Doc.list? with
  | none => rule
  | some tags =>
      if isMatrixRule rule then rule else rule.set "inboundTag" (.list (expandTags shadows tags))

/-- {lit}`shadow_tags`: the tags of listeners with the tags of their tunnel listeners. -/
def shadowTags (parts : List (Listener × Option Listener)) : List (String × String) :=
  parts.filterMap fun part => part.2.map fun shadow => (part.1.tag, shadow.tag)

/-- The routing of {lit}`build_config`. -/
def MatrixStore.buildRouting (py : Builtins) (digest : String → String) (s : MatrixStore)
    (parts : List (Listener × Option Listener)) : Doc :=
  let routing := s.routingForScope py digest "hub" s.routing
  routing.set "rules" (.list ((routing.itemsAt "rules").map (expandRule (shadowTags parts))))

/-! ## What a list of rules decides -/

/-- Fields of a rule that are no conditions. -/
def noConditions : List String :=
  ["type", "ruleTag", "outboundTag", "balancerTag", "domainMatcher", "inboundTag"]

/-- A connection: the tag of its listener, and the other conditions that it meets. -/
structure Connection where
  inboundTag : String
  meets : String → Doc → Bool

/-- A rule lists the tag of a listener, or lists no tags. -/
def listsTag (rule : Doc) (tag : String) : Bool :=
  (rule.get? "inboundTag").elim true fun d =>
    (d.list?.getD []).any fun item => item.str? = some tag

/-- The other conditions of a rule hold. -/
def conditionsHold (rule : Doc) (c : Connection) : Bool :=
  (rule.dict?.getD []).all fun field => field.1 ∈ noConditions || c.meets field.1 field.2

/-- Each condition of a rule holds. -/
def ruleHolds (c : Connection) (rule : Doc) : Bool :=
  listsTag rule c.inboundTag && conditionsHold rule c

/-- Where a rule leads. -/
inductive Target where
  | outbound (tag : String)
  | balancer (tag : String)
  | none
deriving DecidableEq, Repr

/-- The target of a rule. -/
def ruleTarget (rule : Doc) : Target :=
  match (rule.get? "outboundTag").bind Doc.str? with
  | some tag => .outbound tag
  | none => ((rule.get? "balancerTag").bind Doc.str?).elim .none .balancer

/-- What a policy decides. -/
def MatrixPolicy.target (policy : MatrixPolicy) (c : Connection) : Option Target :=
  if policy = .custom then none
  else if policy.parts.1 && c.meets "domain" adblockDomainMatchers then some (.outbound "block")
  else
    match policy.parts.2 with
    | .ai =>
        if c.meets "domain" aiDomainMatchers then some (.outbound "warp")
        else some (.outbound "direct")
    | .all => if c.meets "network" (.str "tcp,udp") then some (.outbound "warp") else none
    | .off => some (.outbound "direct")

/-- The listener that a row is about. -/
def MatrixStore.rowTag (py : Builtins) (s : MatrixStore) (scope : String)
    (row : (String × ℕ × AccessPath) × MatrixPolicy) : Option String :=
  (s.inbounds.get? row.1.2.1).bind fun inbound =>
    if inbound.enable then
      matrixTag py row.1.2.1 row.1.2.2 inbound.tag (portAt inbound.panelMeta (runtimeOf scope))
    else none

/-- What the saved policies of a scope decide: the first of those for the listener that
decides the connection. -/
def MatrixStore.policyTarget (py : Builtins) (s : MatrixStore) (scope : String) (c : Connection) :
    Option Target :=
  (s.matrixRows scope).findSome? fun row =>
    if s.rowTag py scope row = some c.inboundTag then row.2.target c else none

/-- What the saved policies of a scope decide, when they are asked for the connections of some
listeners. -/
def MatrixStore.policyTargetAt (py : Builtins) (s : MatrixStore) (scope : String)
    (listens : String → Bool) (c : Connection) : Option Target :=
  (s.matrixRows scope).findSome? fun row =>
    if (s.rowTag py scope row).any listens then row.2.target c else none

/-- Rules of the Traffic Matrix are matched by their listener and by their conditions. -/
def MatchesBy (digest : String → String) (scope : String) (c : Connection) (m : Doc → Bool)
    (listens : String → Bool) : Prop :=
  ∀ tag i path kind outbound conditions, (∀ field ∈ conditions, field.1 ∈ ["domain", "network"]) →
    m (matrixRule tag (managedRuleTag digest scope i path kind) conditions outbound) =
      (listens tag && conditions.all fun field => c.meets field.1 field.2)

section Compiled

variable {py : Builtins} {digest : String → String} {s : MatrixStore} {scope : String}
  {c : Connection} {m : Doc → Bool} {listens : String → Bool}

@[simp]
theorem ruleTarget_matrixRule (tag ruleTag outbound : String) (conditions : List (String × Doc))
    (h : ∀ field ∈ conditions, field.1 ∈ ["domain", "network"]) :
    ruleTarget (matrixRule tag ruleTag conditions outbound) = .outbound outbound := by
  have hfield : Doc.field? (conditions ++ [("outboundTag", Doc.str outbound)]) "outboundTag" =
      some (.str outbound) := by
    induction conditions with
    | nil => rfl
    | cons field conditions ih =>
        have hne : field.1 ≠ "outboundTag" := by
          intro heq
          have hkey := h field List.mem_cons_self
          rw [heq] at hkey
          exact absurd hkey (by decide)
        rw [List.cons_append, Doc.field?_cons, if_neg hne]
        exact ih fun f hf => h f (List.mem_cons_of_mem _ hf)
  have hget : (matrixRule tag ruleTag conditions outbound).get? "outboundTag" =
      some (.str outbound) := by
    simp [matrixRule, Doc.get?, Doc.field?_cons, hfield]
  simp [ruleTarget, hget, Doc.str?, Doc.str]

/-- The conditions of such a rule are those of its policy. -/
theorem conditionsHold_matrixRule {tag ruleTag outbound : String}
    {conditions : List (String × Doc)}
    (h : ∀ field ∈ conditions, field.1 ∈ ["domain", "network"]) :
    conditionsHold (matrixRule tag ruleTag conditions outbound) c =
      conditions.all fun field => c.meets field.1 field.2 := by
  have hall : (conditions.all fun field => decide (field.1 ∈ noConditions) ||
      c.meets field.1 field.2) = conditions.all fun field => c.meets field.1 field.2 := by
    induction conditions with
    | nil => rfl
    | cons field conditions ih =>
        have hkey : field.1 ∉ noConditions := by
          intro hmem
          have hfield := h field List.mem_cons_self
          simp only [List.mem_cons, List.not_mem_nil, or_false] at hfield
          rcases hfield with hdomain | hnetwork
          · rw [hdomain] at hmem
            exact absurd hmem (by decide)
          · rw [hnetwork] at hmem
            exact absurd hmem (by decide)
        rw [List.all_cons, List.all_cons, ih fun f hf => h f (List.mem_cons_of_mem _ hf)]
        simp [hkey]
  rw [← hall]
  simp [conditionsHold, matrixRule, Doc.dict?, noConditions]

/-- A connection is matched by its own listener. -/
theorem matchesBy_ruleHolds : MatchesBy digest scope c (ruleHolds c) fun tag => tag = c.inboundTag := by
  intro tag i path kind outbound conditions h
  have hlists : listsTag (matrixRule tag (managedRuleTag digest scope i path kind) conditions
      outbound) c.inboundTag = decide (tag = c.inboundTag) := by
    simp [listsTag, matrixRule, Doc.get?, Doc.field?_cons, Doc.list?, Doc.str?, Doc.str]
  rw [ruleHolds, hlists, conditionsHold_matrixRule h]

/-- What the rules of one policy decide. -/
theorem decision_compileRules_of (hm : MatchesBy digest scope c m listens) (inboundId : ℕ)
    (path : AccessPath) (policy : MatrixPolicy) (inboundTag : String) (tunnelPort : Option Port) :
    decision m ruleTarget
        (compileRules py digest scope inboundId path policy inboundTag tunnelPort) =
      if (matrixTag py inboundId path inboundTag tunnelPort).any listens then policy.target c
      else none := by
  unfold compileRules
  by_cases hcustom : policy = .custom
  · simp [hcustom, decision, MatrixPolicy.target]
  rw [if_neg hcustom]
  have hone : ∀ (tag kind outbound key : String) (d : Doc) (rules : List Doc),
      key ∈ ["domain", "network"] →
        decision m ruleTarget (matrixRule tag
            (managedRuleTag digest scope inboundId path kind) [(key, d)] outbound :: rules) =
          if listens tag = true ∧ c.meets key d = true then some (.outbound outbound)
          else decision m ruleTarget rules := by
    intro tag kind outbound key d rules hkey
    have hkeys : ∀ field ∈ [(key, d)], field.1 ∈ ["domain", "network"] := by simpa using hkey
    rw [decision_cons, hm _ _ _ _ _ _ hkeys, ruleTarget_matrixRule _ _ _ _ hkeys]
    simp
  have hplain : ∀ tag kind outbound : String,
      decision m ruleTarget [matrixRule tag (managedRuleTag digest scope inboundId path kind) []
        outbound] = if listens tag = true then some (.outbound outbound) else none := by
    intro tag kind outbound
    have hkeys : ∀ field ∈ ([] : List (String × Doc)), field.1 ∈ ["domain", "network"] := by simp
    rw [decision_cons, hm _ _ _ _ _ _ hkeys, ruleTarget_matrixRule _ _ _ _ hkeys]
    simp [decision]
  have hdomain : "domain" ∈ ["domain", "network"] := by decide
  have hnetwork : "network" ∈ ["domain", "network"] := by decide
  have hnone : decision m ruleTarget [] = none := rfl
  cases htag : matrixTag py inboundId path inboundTag tunnelPort with
  | none => simp [decision]
  | some tag =>
      rw [Option.any_some]
      by_cases hlistens : listens tag = true
      · rw [if_pos hlistens]
        cases policy <;>
          simp [MatrixPolicy.parts, MatrixPolicy.target, hone _ _ _ _ _ _ hdomain,
            hone _ _ _ _ _ _ hnetwork, hplain, hlistens, hnone] at hcustom ⊢
      · rw [if_neg hlistens]
        cases policy <;>
          simp [MatrixPolicy.parts, hone _ _ _ _ _ _ hdomain, hone _ _ _ _ _ _ hnetwork, hplain,
            hlistens, hnone] at hcustom ⊢

/-- What the rules of one row decide. -/
theorem decision_rowRules_of (hm : MatchesBy digest scope c m listens)
    (row : (String × ℕ × AccessPath) × MatrixPolicy) :
    decision m ruleTarget (s.rowRules py digest scope row) =
      if (s.rowTag py scope row).any listens then row.2.target c else none := by
  unfold MatrixStore.rowRules MatrixStore.rowTag
  cases hinbound : s.inbounds.get? row.1.2.1 with
  | none => simp [decision]
  | some inbound =>
      by_cases henable : inbound.enable = true
      · simp [henable, decision_compileRules_of hm]
      · simp [henable, decision]

/-- What the rules of all policies of a scope decide. -/
theorem decision_matrixRules_of (hm : MatchesBy digest scope c m listens) :
    decision m ruleTarget (s.matrixRules py digest scope) =
      s.policyTargetAt py scope listens c := by
  rw [MatrixStore.matrixRules, MatrixStore.policyTargetAt, decision_flatMap]
  simp only [decision_rowRules_of hm]

/-- The same for the listener that decides the connection. -/
theorem decision_rowRules (row : (String × ℕ × AccessPath) × MatrixPolicy) :
    decision (ruleHolds c) ruleTarget (s.rowRules py digest scope row) =
      if s.rowTag py scope row = some c.inboundTag then row.2.target c else none := by
  rw [decision_rowRules_of matchesBy_ruleHolds]
  cases s.rowTag py scope row with
  | none => rfl
  | some tag => simp

theorem decision_matrixRules :
    decision (ruleHolds c) ruleTarget (s.matrixRules py digest scope) =
      s.policyTarget py scope c := by
  rw [MatrixStore.matrixRules, MatrixStore.policyTarget, decision_flatMap]
  simp only [decision_rowRules]

end Compiled

/-! ## Marked rules -/

section Marks

variable {py : Builtins} {digest : String → String}

theorem isMatrixRule_ruleTag {rule : Doc} {tag : String}
    (h : rule.get? "ruleTag" = some (.str tag)) :
    isMatrixRule rule = "dark-matrix-".toList.isPrefixOf tag.toList := by
  unfold isMatrixRule ruleTagOf
  rw [h]
  by_cases hempty : tag = ""
  · subst hempty
    rfl
  · simp [Doc.str, Atom.truthy, Atom.text, hempty]

/-- The rules of the Traffic Matrix are marked. -/
theorem isMatrixRule_matrixRule (tag scope kind outbound : String) (i : ℕ) (path : AccessPath)
    (conditions : List (String × Doc)) :
    isMatrixRule (matrixRule tag (managedRuleTag digest scope i path kind) conditions outbound) =
      true := by
  have htag : (matrixRule tag (managedRuleTag digest scope i path kind) conditions outbound).get?
      "ruleTag" = some (.str (managedRuleTag digest scope i path kind)) := rfl
  rw [isMatrixRule_ruleTag htag, List.isPrefixOf_iff_prefix]
  unfold managedRuleTag
  simp only [String.toList_append, List.append_assoc]
  exact List.prefix_append _ _

theorem isMatrixRule_compileRules {scope : String} {i : ℕ} {path : AccessPath}
    {policy : MatrixPolicy} {tag : String} {port : Option Port} {rule : Doc}
    (h : rule ∈ compileRules py digest scope i path policy tag port) :
    isMatrixRule rule = true := by
  unfold compileRules at h
  by_cases hcustom : policy = .custom
  · rw [if_pos hcustom] at h
    cases h
  rw [if_neg hcustom] at h
  cases hlistener : matrixTag py i path tag port with
  | none =>
      rw [hlistener] at h
      cases h
  | some listener =>
      rw [hlistener] at h
      cases policy <;> simp [MatrixPolicy.parts] at h hcustom <;>
        rcases h with rfl | rfl | rfl <;> exact isMatrixRule_matrixRule _ _ _ _ _ _ _

end Marks

/-! ## Rules that have been extended -/

/-- A rule names an inbound. -/
def namesInbound (rule : Doc) (tag : String) : Bool :=
  (rule.itemsAt "inboundTag").any fun d => tagText d = some tag

section Extended

variable {shadows : List (String × String)} {rule : Doc} {c : Connection}

/-- Tags are only added, each of them a tunnel listener of an inbound that is named. -/
theorem any_expandTags {tags : List Doc} {t : String} :
    ((expandTags shadows tags).any fun d => d.str? = some t) = true ↔
      (tags.any fun d => d.str? = some t) = true ∨
        ∃ p, (p, t) ∈ shadows ∧ (tags.any fun d => tagText d = some p) = true := by
  have hfold : ∀ (added : List String) (expanded : List Doc),
      ((added.foldl (fun expanded shadow =>
          if expanded.any fun d => d.str? = some shadow then expanded
          else expanded ++ [.str shadow]) expanded).any fun d => d.str? = some t) = true ↔
        (expanded.any fun d => d.str? = some t) = true ∨ t ∈ added := by
    intro added
    induction added with
    | nil => simp
    | cons shadow added ih =>
        intro expanded
        rw [List.foldl_cons, ih, List.mem_cons]
        by_cases hthere : (expanded.any fun d => d.str? = some shadow) = true
        · rw [if_pos hthere]
          constructor
          · rintro (hold | hmem)
            · exact Or.inl hold
            · exact Or.inr (Or.inr hmem)
          · rintro (hold | rfl | hmem)
            · exact Or.inl hold
            · exact Or.inl hthere
            · exact Or.inr hmem
        · rw [if_neg hthere, List.any_append, Bool.or_eq_true, or_assoc]
          have hnew : ([Doc.str shadow].any fun d => d.str? = some t) = true ↔ t = shadow := by
            rw [List.any_cons, List.any_nil, Bool.or_false, decide_eq_true_eq]
            exact ⟨fun h => (Option.some.inj h).symm, fun h => congrArg some h.symm⟩
          rw [hnew]
  unfold expandTags
  rw [hfold]
  refine or_congr_right ?_
  simp only [List.mem_map, List.mem_flatMap, List.mem_filter, decide_eq_true_eq, List.any_eq_true,
    Prod.exists, exists_eq_right]
  constructor
  · rintro ⟨p, tag, htag, hshadow, htext⟩
    exact ⟨p, hshadow, tag, htag, htext⟩
  · rintro ⟨p, hshadow, tag, htag, htext⟩
    exact ⟨p, tag, htag, hshadow, htext⟩

/-- A field that holds an array is a field of an object. -/
theorem field_of_list {d : Doc} {key : String} {items : List Doc}
    (h : (d.get? key).bind Doc.list? = some items) :
    d.isDict = true ∧ d.get? key = some (.list items) := by
  obtain ⟨value, hget, hlist⟩ := Option.bind_eq_some_iff.mp h
  constructor
  · cases d with
    | dict fields => rfl
    | atom a => cases hget
    | list items => cases hget
  · cases value with
    | list items' =>
        obtain rfl := Option.some.inj hlist
        exact hget
    | atom a => cases hlist
    | dict fields => cases hlist

/-- Which listeners a rule lists that has been extended. -/
theorem listsTag_expandRule {t : String} :
    listsTag (expandRule shadows rule) t = true ↔
      listsTag rule t = true ∨
        (isMatrixRule rule = false ∧ ∃ p, (p, t) ∈ shadows ∧ namesInbound rule p = true) := by
  unfold expandRule namesInbound Doc.itemsAt
  cases hlist : (rule.get? "inboundTag").bind Doc.list? with
  | none => simp
  | some tags =>
      by_cases hmatrix : isMatrixRule rule = true
      · simp [hmatrix]
      · obtain ⟨hdict, hfield⟩ := field_of_list hlist
        have hset : listsTag (rule.set "inboundTag" (.list (expandTags shadows tags))) t =
            (expandTags shadows tags).any fun d => d.str? = some t := by
          simp [listsTag, Doc.get?_set hdict, Doc.list?]
        have hold : listsTag rule t = tags.any fun d => d.str? = some t := by
          simp [listsTag, hfield, Doc.list?]
        simp only [hmatrix, Bool.false_eq_true, if_false, Option.getD_some, true_and]
        rw [hset, hold, any_expandTags]

/-- Fields that are no conditions may be assigned. -/
theorem conditionsHold_set {key : String} (hkey : key ∈ noConditions) (v : Doc) :
    conditionsHold (rule.set key v) c = conditionsHold rule c := by
  cases rule with
  | atom a => rfl
  | list items => rfl
  | dict fields =>
      have hall : ((Doc.setField key v fields).all fun field =>
          decide (field.1 ∈ noConditions) || c.meets field.1 field.2) =
          fields.all fun field => decide (field.1 ∈ noConditions) || c.meets field.1 field.2 := by
        induction fields with
        | nil => simp [Doc.setField, hkey]
        | cons field fields ih =>
            unfold Doc.setField
            by_cases hfield : field.1 = key
            · simp [hfield, hkey]
            · rw [if_neg hfield, List.all_cons, List.all_cons, ih]
      exact hall

theorem conditionsHold_expandRule : conditionsHold (expandRule shadows rule) c =
    conditionsHold rule c := by
  unfold expandRule
  cases (rule.get? "inboundTag").bind Doc.list? with
  | none => rfl
  | some tags =>
      by_cases hmatrix : isMatrixRule rule = true
      · simp [hmatrix]
      · simp [hmatrix, conditionsHold_set (show "inboundTag" ∈ noConditions by decide)]

@[simp]
theorem ruleTarget_expandRule : ruleTarget (expandRule shadows rule) = ruleTarget rule := by
  unfold expandRule
  cases (rule.get? "inboundTag").bind Doc.list? with
  | none => rfl
  | some tags =>
      by_cases hmatrix : isMatrixRule rule = true
      · simp [hmatrix]
      · simp [hmatrix, ruleTarget, Doc.get?_set_of_ne]

/-- The rule covers a connection, when the rules of an inbound that are not of the Traffic
Matrix also cover its tunnel listener. -/
def ruleCovers (primary : Option String) (c : Connection) (rule : Doc) : Bool :=
  (listsTag rule c.inboundTag ||
    (!isMatrixRule rule && primary.elim false (namesInbound rule))) && conditionsHold rule c

/-- A rule that has been extended applies to the connections that it covered, if the listener
of the connection is the tunnel listener of one inbound, or of none. -/
theorem holds_expandRule {primary : Option String}
    (hshadows : ∀ p, (p, c.inboundTag) ∈ shadows ↔ primary = some p) :
    ruleHolds c (expandRule shadows rule) = ruleCovers primary c rule := by
  unfold ruleHolds ruleCovers
  rw [conditionsHold_expandRule]
  congr 1
  rw [Bool.eq_iff_iff, listsTag_expandRule, Bool.or_eq_true, Bool.and_eq_true, Bool.not_eq_true']
  refine or_congr_right (and_congr_right fun _ => ?_)
  cases primary with
  | none => simp [hshadows]
  | some p => simp only [hshadows, Option.some.injEq, exists_eq_left', Option.elim_some]

end Extended

end Core
end DarkXray
