import DarkXray.Core.Listeners
import DarkXray.Core.TrafficMatrix

/-!
# Where the tunnel listeners of the Hub send their connections

{lit}`build_config` puts the rules of the Traffic Matrix in front of the stored rules and
extends the stored ones to the tunnel listeners of the inbounds that they name.  A tunnel
listener is to be routed as its inbound, and a policy of the Traffic Matrix is to concern the
connections of one inbound on one access path only.

A stored rule may also name a tunnel listener by its own tag; it then applies to this listener
beside the rules of its inbound.

Main results:

- Theorem {lit}`kept_run`: what the editors keep of the tags and the rules.
- Theorem {lit}`owner_of_rowTag`: each listener has the policy of one inbound and access path.
- Theorem {lit}`tunnel_routed_like_inbound`: where the connections of both listeners of an
  inbound go.
-/

namespace DarkXray
namespace Core

open Library

/-! ## What the editors keep -/

/-- The tags of a rule are a list of texts, if it has any. -/
def TextTags (rule : Doc) : Prop :=
  ∀ v, rule.get? "inboundTag" = some v → ∃ texts : List String, v = .list (texts.map Doc.str)

/-- What the editors have checked of the rows and of the stored routing. -/
structure Kept (cfg : Config) (s : CoreStore) : Prop extends Separated cfg s where
  tags : ∀ i r, s.inbounds.get? i = some r → tagRe r.tag = true
  routing : s.routing.isDict = true
  rules : ∀ rule ∈ s.routing.itemsAt "rules", TextTags rule

section Editors

variable {py : Builtins} {cfg : Config} {s t : CoreStore}

theorem kept_fresh : Kept cfg CoreStore.fresh where
  toSeparated := Separated.of_empty rfl
  tags := by simp [CoreStore.fresh]
  routing := rfl
  rules := by simp [CoreStore.fresh, Doc.itemsAt, Doc.get?, Doc.field?, Doc.list?]

/-- A row that may be stored has a valid tag. -/
theorem parseInbound_tag {fresh : String} {data : Doc} {v : Inbound}
    {ports : List (String × Port)} (h : parseInbound py cfg fresh data = .ok (v, ports)) :
    tagRe v.tag = true := by
  simp only [parseInbound, except_bind_ok_iff, check_ok_iff, insist_ok_iff,
    except_pure_ok_iff, Prod.mk.injEq] at h
  obtain ⟨_, _, _, _, proto, _, port, _, _, hport, _, _, _, _, _, _, tag, htag, _, _, _, _, _, _,
    panelMeta, hmeta, tunnelPorts, htunnel, _, _, _, _, _, _, _, _, rfl, rfl⟩ := h
  have hfilter := (Option.filter_eq_some_iff.mp htag).2
  rw [Bool.and_eq_true] at hfilter
  exact hfilter.1

theorem exists_texts {p : String → Bool} {items : List Doc}
    (h : ∀ x ∈ items, x.str?.elim false p = true) :
    ∃ texts : List String, items = texts.map Doc.str := by
  induction items with
  | nil => exact ⟨[], rfl⟩
  | cons x items ih =>
      obtain ⟨texts, htexts⟩ := ih fun y hy => h y (List.mem_cons_of_mem _ hy)
      have hx := h x List.mem_cons_self
      cases hs : x.str? with
      | none => simp [hs] at hx
      | some text =>
          have htext : x = .str text := by
            have hbind : (some x).bind Doc.str? = some text := hs
            simpa using Doc.bind_str?_iff.mp hbind
          exact ⟨text :: texts, by rw [htext, htexts, List.map_cons]⟩

/-- A nonempty list of texts is a list of texts. -/
theorem texts_of_nonemptyListOf {p : String → Bool} {d : Doc}
    (h : nonemptyListOf (fun x => x.str?.elim false p) (some d) = true) :
    ∃ texts : List String, d = .list (texts.map Doc.str) := by
  unfold nonemptyListOf at h
  cases d with
  | atom a => simp [Doc.list?] at h
  | dict fields => simp [Doc.list?] at h
  | list items =>
      have hall : ∀ x ∈ items, x.str?.elim false p = true := by
        simpa [Doc.list?] using (Bool.and_eq_true_iff.mp h).2
      obtain ⟨texts, htexts⟩ := exists_texts hall
      exact ⟨texts, by rw [htexts]⟩

/-- A stored rule lists its tags as texts. -/
theorem checkRule_textTags {tags : List Atom} {btags : List String} {rule stored : Doc}
    (h : checkRule py tags btags rule = .ok stored) : TextTags stored := by
  simp only [checkRule, checkRuleFields, except_bind_ok_iff, check_ok_iff, except_pure_ok_iff,
    except_forM_ok_iff] at h
  obtain ⟨_, hdict, _, _, _, _, _, _, _, ⟨_, _, _, _, _, _, _, _, _, hlists, _⟩, rfl⟩ := h
  intro v hv
  have hlist := hlists "inboundTag" (by decide)
  rw [hv] at hlist
  exact texts_of_nonemptyListOf hlist

/-- An accepted routing is an object whose rules list their tags as texts. -/
theorem checkRouting_textTags {outbounds : List Doc} {value routing : Doc}
    (hdict : value.isDict = true) (h : checkRouting py outbounds value = .ok routing) :
    routing.isDict = true ∧ ∀ rule ∈ routing.itemsAt "rules", TextTags rule := by
  simp only [checkRouting, except_bind_ok_iff, check_ok_iff, except_pure_ok_iff] at h
  obtain ⟨_, _, rules, hrules, balancers, hbalancers, btags, hbtags, stored, hstored, rfl⟩ := h
  split
  · refine ⟨by rw [Doc.isDict_set, hdict], ?_⟩
    intro rule hrule
    unfold Doc.itemsAt at hrule
    rw [Doc.get?_set hdict, if_pos rfl] at hrule
    obtain ⟨submitted, _, hchecked⟩ := exists_of_mem_mapM hstored hrule
    exact checkRule_textTags hchecked
  · rename_i hnone
    refine ⟨hdict, ?_⟩
    intro rule hrule
    have hget : value.get? "rules" = none := by simpa using hnone
    simp [Doc.itemsAt, hget] at hrule

/-- Saving a section keeps what the routing reads. -/
theorem Kept.saved (h : Kept cfg s) {name : SectionName} {value : Doc}
    (hok : saveSection py cfg s name value = .ok t) : Kept cfg t := by
  obtain ⟨hrows, hnext⟩ := saveSection_inbounds hok
  have hsep : Separated cfg t := h.toSeparated.congr hrows hnext
  have htags : ∀ i r, t.inbounds.get? i = some r → tagRe r.tag = true := by
    rw [hrows]
    exact h.tags
  cases name <;> simp only [saveSection, except_bind_ok_iff, check_ok_iff,
    except_pure_ok_iff] at hok
  · obtain ⟨_, _, _, _, _, _, _, _, rfl⟩ := hok
    exact ⟨hsep, htags, h.routing, h.rules⟩
  · obtain ⟨_, _, _, hdict, _, _, routing, hrouting, rfl⟩ := hok
    obtain ⟨hisDict, hrules⟩ := checkRouting_textTags hdict hrouting
    exact ⟨hsep, htags, hisDict, hrules⟩
  · obtain ⟨_, _, _, _, _, _, _, _, rfl⟩ := hok
    exact ⟨hsep, htags, h.routing, h.rules⟩

/-- Every edit keeps what the routing reads. -/
theorem Kept.edited {e : Edit} (h : Kept cfg s) (hstep : Edited py cfg s e t) : Kept cfg t := by
  have hsep := h.toSeparated.edited hstep
  rcases hstep.cases with rfl | hok
  · exact h
  · cases e with
    | saveSection name value => exact h.saved hok
    | saveInbound fresh data i =>
        obtain ⟨v, ports, hparse, _, _, rfl⟩ := saveInbound_ok hok
        refine ⟨hsep, ?_, ?_, ?_⟩
        · intro j r hr
          cases i with
          | none =>
              by_cases hnew : s.inbounds.get? s.nextId = none
              · change (s.inbounds.insert s.nextId v).get? j = some r at hr
                rw [Table.get?_insert hnew] at hr
                split at hr
                · cases hr
                  exact parseInbound_tag hparse
                · exact h.tags j r hr
              · obtain ⟨old, hold⟩ := Option.ne_none_iff_exists'.mp hnew
                exact absurd (h.fresh _ _ hold) (lt_irrefl _)
          | some k =>
              change (s.inbounds.update k fun _ => v).get? j = some r at hr
              rw [Table.get?_update] at hr
              split at hr
              · obtain ⟨_, _, rfl⟩ := Option.map_eq_some_iff.mp hr
                exact parseInbound_tag hparse
              · exact h.tags j r hr
        · cases i <;> exact h.routing
        · cases i <;> exact h.rules
    | deleteInbound i =>
        obtain ⟨_, rfl⟩ := deleteInbound_ok hok
        refine ⟨hsep, ?_, h.routing, h.rules⟩
        intro j r hr
        change (s.inbounds.erase i).get? j = some r at hr
        rw [Table.get?_erase] at hr
        split at hr
        · cases hr
        · exact h.tags j r hr
    | setClients clients managed =>
        have ht : { s with clients, managed } = t := Except.ok.inj hok
        subst ht
        exact ⟨hsep, h.tags, h.routing, h.rules⟩

/-- After any edits, accepted or rejected, of a fresh store. -/
theorem kept_run {es : List Edit} (hrun : Run (Edited py cfg) CoreStore.fresh es s) :
    Kept cfg s :=
  hrun.invariant kept_fresh fun _ _ _ h hstep => h.edited hstep

end Editors

/-! ## The listeners of an inbound -/

/-- The tag of the listener of an inbound for an access path. -/
def pathTag (i : ℕ) (r : Inbound) : AccessPath → Option String
  | .direct => some r.tag
  | .tunnel => (localPort r.panelMeta).map (tunnelTag i)

/-- No enabled row carries the tag of the local tunnel port of an enabled row. -/
def TunnelTagsApart (s : CoreStore) : Prop :=
  ∀ i r j q p, s.inbounds.get? i = some r → s.inbounds.get? j = some q → r.enable = true →
    q.enable = true → localPort q.panelMeta = some p → r.tag ≠ tunnelTag j p

section Owners

variable {py : Builtins} {cfg : Config} {digest : String → String} {s : MatrixStore} {i : ℕ}
  {r : Inbound} {path : AccessPath} {c : Connection}
  {parts : List (Listener × Option Listener)}

/-- Listeners of enabled inbounds with the same tag are the same. -/
theorem pathTag_inj (hkept : Kept cfg s.toCoreStore) (hapart : TunnelTagsApart s.toCoreStore)
    {j : ℕ} {q : Inbound} {path' : AccessPath} {tag : String}
    (hr : s.inbounds.get? i = some r) (hq : s.inbounds.get? j = some q)
    (hre : r.enable = true) (hqe : q.enable = true) (htag : pathTag i r path = some tag)
    (htag' : pathTag j q path' = some tag) : (j, path') = (i, path) := by
  cases path with
  | direct =>
      have hdirect : r.tag = tag := Option.some.inj htag
      cases path' with
      | direct =>
          have hdirect' : q.tag = tag := Option.some.inj htag'
          by_contra hne
          have hij : i ≠ j := fun h => hne (by rw [h])
          exact (hkept.apart i j r q hr hq hij).tag (hdirect.trans hdirect'.symm)
      | tunnel =>
          obtain ⟨p, hp, hshadow⟩ := Option.map_eq_some_iff.mp htag'
          exact absurd (hdirect.trans hshadow.symm) (hapart i r j q p hr hq hre hqe hp)
  | tunnel =>
      obtain ⟨p, hp, hshadow⟩ := Option.map_eq_some_iff.mp htag
      cases path' with
      | direct =>
          have hdirect' : q.tag = tag := Option.some.inj htag'
          exact absurd (hdirect'.trans hshadow.symm) (hapart j q i r p hq hr hqe hre hp)
      | tunnel =>
          obtain ⟨p', _, hshadow'⟩ := Option.map_eq_some_iff.mp htag'
          rw [tunnelTag_inj (hshadow'.trans hshadow.symm)]

/-- The listener that a policy of the Hub is about. -/
theorem rowTag_eq_some (hkept : Kept cfg s.toCoreStore)
    (hstrip : ∀ t, tagRe t = true → py.strip t = t)
    {row : (String × ℕ × AccessPath) × MatrixPolicy} {tag : String}
    (h : s.rowTag py "hub" row = some tag) :
    ∃ q, s.inbounds.get? row.1.2.1 = some q ∧ q.enable = true ∧
      pathTag row.1.2.1 q row.1.2.2 = some tag := by
  obtain ⟨q, hq, hrow⟩ := Option.bind_eq_some_iff.mp h
  by_cases henable : q.enable = true
  · rw [if_pos henable] at hrow
    refine ⟨q, hq, henable, ?_⟩
    unfold matrixTag at hrow
    rw [hstrip _ (hkept.tags _ _ hq)] at hrow
    split at hrow
    · cases hrow
    · cases hpath : row.1.2.2 with
      | direct =>
          rw [hpath] at hrow
          exact hrow
      | tunnel =>
          rw [hpath] at hrow
          exact hrow
  · rw [if_neg henable] at hrow
    cases hrow

/-- The policy that concerns a listener is that of its inbound and access path. -/
theorem owner_of_rowTag (hkept : Kept cfg s.toCoreStore)
    (hstrip : ∀ t, tagRe t = true → py.strip t = t) (hapart : TunnelTagsApart s.toCoreStore)
    (hr : s.inbounds.get? i = some r) (henable : r.enable = true)
    (hlistens : pathTag i r path = some c.inboundTag)
    {row : (String × ℕ × AccessPath) × MatrixPolicy}
    (h : s.rowTag py "hub" row = some c.inboundTag) : row.1.2 = (i, path) := by
  obtain ⟨q, hq, hqe, htag⟩ := rowTag_eq_some hkept hstrip h
  exact pathTag_inj hkept hapart hr hq henable hqe hlistens htag

/-- The rules of one policy concern one listener. -/
theorem listsTag_compileRules {inboundId : ℕ} {policy : MatrixPolicy} {inboundTag scope : String}
    {tunnelPort : Option Port} {rule : Doc} {tag : String}
    (hrule : rule ∈ compileRules py digest scope inboundId path policy inboundTag tunnelPort)
    (hlists : listsTag rule tag = true) :
    matrixTag py inboundId path inboundTag tunnelPort = some tag := by
  unfold compileRules at hrule
  by_cases hcustom : policy = .custom
  · rw [if_pos hcustom] at hrule
    cases hrule
  rw [if_neg hcustom] at hrule
  have hone : ∀ listener ruleTag outbound conditions,
      listsTag (matrixRule listener ruleTag conditions outbound) tag = true → listener = tag := by
    intro listener ruleTag outbound conditions h
    simpa [listsTag, matrixRule, Doc.get?, Doc.field?_cons, Doc.list?, Doc.str?, Doc.str] using h
  cases hlistener : matrixTag py inboundId path inboundTag tunnelPort with
  | none =>
      rw [hlistener] at hrule
      cases hrule
  | some listener =>
      rw [hlistener] at hrule
      congr 1
      cases policy <;> simp [MatrixPolicy.parts] at hrule hcustom <;>
        rcases hrule with rfl | rfl | rfl <;> exact hone _ _ _ _ hlists

/-- A rule of the Traffic Matrix that lists a listener belongs to a policy about it. -/
theorem rowTag_of_listsTag {row : (String × ℕ × AccessPath) × MatrixPolicy} {rule : Doc}
    {tag : String} (hrule : rule ∈ s.rowRules py digest "hub" row)
    (hlists : listsTag rule tag = true) : s.rowTag py "hub" row = some tag := by
  unfold MatrixStore.rowRules at hrule
  unfold MatrixStore.rowTag
  cases hinbound : s.inbounds.get? row.1.2.1 with
  | none =>
      rw [hinbound] at hrule
      cases hrule
  | some inbound =>
      rw [hinbound] at hrule
      by_cases henable : inbound.enable = true
      · simp only [henable, if_true] at hrule
        simpa [henable] using listsTag_compileRules hrule hlists
      · simp [henable] at hrule

end Owners

/-! ## The routing of the Hub -/

/-- The rules that the Traffic Matrix generates for an inbound and access path of the Hub. -/
def MatrixStore.pathRules (py : Builtins) (digest : String → String) (s : MatrixStore) (i : ℕ)
    (path : AccessPath) : List Doc :=
  (s.matrix.get? ("hub", i, path)).elim [] fun policy =>
    s.rowRules py digest "hub" (("hub", i, path), policy)

/-- What the stored rules without those of the Traffic Matrix decide. -/
def MatrixStore.storedDecision (s : MatrixStore) (m : Doc → Bool) : Option Target :=
  decision m ruleTarget (baseRules s.routing)

/-- What the generated configuration decides about a connection. -/
def MatrixStore.hubDecision (py : Builtins) (digest : String → String) (s : MatrixStore)
    (parts : List (Listener × Option Listener)) (c : Connection) : Option Target :=
  decision (ruleHolds c) ruleTarget ((s.buildRouting py digest parts).itemsAt "rules")

section Routing

variable {py : Builtins} {cfg : Config} {digest : String → String} {s : MatrixStore} {i : ℕ}
  {r : Inbound} {path : AccessPath} {c : Connection}
  {parts : List (Listener × Option Listener)}

theorem mem_matrixRows {row : (String × ℕ × AccessPath) × MatrixPolicy} {scope : String} :
    row ∈ s.matrixRows scope ↔ row ∈ s.matrix.rows ∧ row.1.1 = scope := by
  unfold MatrixStore.matrixRows
  rw [(List.perm_insertionSort _ _).mem_iff, List.mem_filter, decide_eq_true_eq]

/-- All rules of the Traffic Matrix decide about a connection as those of its own inbound and
access path do. -/
theorem decision_matrixRules_path
    (howner : ∀ row ∈ s.matrixRows "hub", s.rowTag py "hub" row = some c.inboundTag →
      row.1.2 = (i, path)) :
    decision (ruleHolds c) ruleTarget (s.matrixRules py digest "hub") =
      decision (ruleHolds c) ruleTarget (s.pathRules py digest i path) := by
  have hforeign : ∀ row ∈ s.matrixRows "hub", row.1.2 ≠ (i, path) →
      decision (ruleHolds c) ruleTarget (s.rowRules py digest "hub" row) = none := by
    intro row hrow hne
    rw [decision_rowRules, if_neg fun htag => hne (howner row hrow htag)]
  have hown : ∀ row ∈ s.matrixRows "hub", row.1.2 = (i, path) →
      s.pathRules py digest i path = s.rowRules py digest "hub" row := by
    intro row hrow hkey
    obtain ⟨hmem, hscope⟩ := mem_matrixRows.mp hrow
    have hrowKey : row = (("hub", i, path), row.2) := by
      rw [← hscope, ← hkey]
    have hget : s.matrix.get? ("hub", i, path) = some row.2 := by
      rw [Table.get?_eq_some_iff, ← hrowKey]
      exact hmem
    rw [MatrixStore.pathRules, hget, Option.elim_some, ← hrowKey]
  have heach : ∀ row ∈ s.matrixRows "hub",
      decision (ruleHolds c) ruleTarget (s.rowRules py digest "hub" row) = none ∨
        decision (ruleHolds c) ruleTarget (s.rowRules py digest "hub" row) =
          decision (ruleHolds c) ruleTarget (s.pathRules py digest i path) := by
    intro row hrow
    by_cases hkey : row.1.2 = (i, path)
    · exact Or.inr (by rw [hown row hrow hkey])
    · exact Or.inl (hforeign row hrow hkey)
  unfold MatrixStore.matrixRules
  cases hdecides : decision (ruleHolds c) ruleTarget (s.pathRules py digest i path) with
  | none =>
      refine decision_flatMap_eq_none fun row hrow => ?_
      rcases heach row hrow with hnone | hsame
      · exact hnone
      · rw [hsame, hdecides]
  | some target =>
      refine decision_flatMap_of_agree (fun row hrow => hdecides ▸ heach row hrow) ?_
      have hsome : s.matrix.get? ("hub", i, path) ≠ none := by
        intro hnone
        rw [MatrixStore.pathRules, hnone] at hdecides
        cases hdecides
      obtain ⟨policy, hpolicy⟩ := Option.ne_none_iff_exists'.mp hsome
      have hmem : (("hub", i, path), policy) ∈ s.matrixRows "hub" :=
        mem_matrixRows.mpr ⟨Table.get?_eq_some_iff.mp hpolicy, rfl⟩
      exact ⟨_, hmem, by rw [← hown _ hmem rfl, hdecides]⟩

/-- The tunnel listeners belong to deployed rows. -/
theorem mem_shadowTags (hbuild : buildInbounds s.toCoreStore = .ok parts) {tag shadow : String}
    (h : (tag, shadow) ∈ shadowTags parts) :
    ∃ j q p, s.inbounds.get? j = some q ∧ q.deployed = true ∧ localPort q.panelMeta = some p ∧
      q.tag = tag ∧ tunnelTag j p = shadow := by
  simp only [buildInbounds, except_bind_ok_iff, except_pure_ok_iff] at hbuild
  obtain ⟨all, hall, rfl⟩ := hbuild
  obtain ⟨part, hpart, hshadow⟩ := List.mem_filterMap.mp h
  obtain ⟨part', hmem, rfl⟩ := List.mem_filterMap.mp hpart
  obtain ⟨row, hrow, hlisteners⟩ := exists_of_mem_mapM hall hmem
  rcases rowListeners_ok hlisteners with hnone | ⟨hdeployed, users, hsome⟩
  · cases hnone
  · obtain rfl := Option.some.inj hsome
    obtain ⟨listener, hlistener, hpair⟩ := Option.map_eq_some_iff.mp hshadow
    obtain ⟨p, hp, rfl⟩ := Option.map_eq_some_iff.mp hlistener
    cases hpair
    exact ⟨row.1, row.2, p, Table.get?_eq_some_iff.mpr hrow, hdeployed, hp, rfl, rfl⟩

/-- The rules of the Traffic Matrix come first, then the stored ones that cover the listener. -/
theorem hubDecision_eq (hkept : Kept cfg s.toCoreStore) {primary : Option String}
    (hshadows : ∀ p, (p, c.inboundTag) ∈ shadowTags parts ↔ primary = some p) :
    s.hubDecision py digest parts c =
      (decision (ruleHolds c) ruleTarget (s.matrixRules py digest "hub")).or
        (s.storedDecision (ruleCovers primary c)) := by
  have hscoped : (s.routingForScope py digest "hub" s.routing).isDict = true := by
    rw [MatrixStore.routingForScope, Doc.isDict_set, hkept.routing]
  have hmarked : ∀ rule ∈ s.matrixRules py digest "hub", isMatrixRule rule = true := by
    intro rule hrule
    obtain ⟨row, -, hrow⟩ := List.mem_flatMap.mp hrule
    unfold MatrixStore.rowRules at hrow
    cases hinbound : s.inbounds.get? row.1.2.1 with
    | none =>
        rw [hinbound] at hrow
        cases hrow
    | some inbound =>
        rw [hinbound] at hrow
        by_cases henable : inbound.enable = true
        · simp only [henable, if_true] at hrow
          exact isMatrixRule_compileRules hrow
        · simp [henable] at hrow
  have hmatrix : decision (ruleCovers primary c) ruleTarget (s.matrixRules py digest "hub") =
      decision (ruleHolds c) ruleTarget (s.matrixRules py digest "hub") := by
    refine decision_congr_left fun rule hrule => ?_
    simp [ruleCovers, ruleHolds, hmarked rule hrule]
  have hrules : (s.buildRouting py digest parts).itemsAt "rules" =
      (s.matrixRules py digest "hub" ++ baseRules s.routing).map
        (expandRule (shadowTags parts)) := by
    unfold MatrixStore.buildRouting
    rw [Doc.itemsAt_set hscoped, MatrixStore.routingForScope, Doc.itemsAt_set hkept.routing]
  rw [MatrixStore.hubDecision, MatrixStore.storedDecision, hrules, ← hmatrix, ← decision_append]
  exact decision_congr _ (fun rule _ => holds_expandRule hshadows) fun rule _ =>
    ruleTarget_expandRule

/-- A stored rule covers a tunnel listener if it applies to the inbound or to the listener
itself. -/
theorem ruleCovers_eq {rule : Doc} (hbase : rule ∈ baseRules s.routing) (htexts : TextTags rule)
    (tag : String) : ruleCovers (some tag) c rule =
      (ruleHolds { c with inboundTag := tag } rule || ruleHolds c rule) := by
  have hunmarked : isMatrixRule rule = false := by
    simpa using (List.mem_filter.mp hbase).2
  have hlists : (listsTag rule c.inboundTag || namesInbound rule tag) =
      (listsTag rule tag || listsTag rule c.inboundTag) := by
    unfold listsTag namesInbound Doc.itemsAt
    cases hget : rule.get? "inboundTag" with
    | none => simp
    | some v =>
        obtain ⟨texts, rfl⟩ := htexts v hget
        simp [Doc.list?, Doc.str?, Doc.str, tagText, Atom.text, Function.comp_def, Bool.or_comm]
  unfold ruleCovers ruleHolds
  rw [hunmarked, Option.elim_some, Bool.not_false, Bool.true_and, hlists, Bool.and_or_distrib_right]
  rfl

/-- Only the rules for this inbound and access path apply to a connection. -/
def MatrixStore.Owned (py : Builtins) (digest : String → String) (s : MatrixStore) (i : ℕ)
    (path : AccessPath) (c : Connection) : Prop :=
  ∀ row ∈ s.matrixRows "hub", ∀ rule ∈ s.rowRules py digest "hub" row, ruleHolds c rule = true →
    row.1.2 = (i, path)

/-- A listener of an inbound: its policy comes first, and no other one concerns it. -/
theorem routed_of_pathTag (hkept : Kept cfg s.toCoreStore)
    (hstrip : ∀ t, tagRe t = true → py.strip t = t) (hapart : TunnelTagsApart s.toCoreStore)
    (hr : s.inbounds.get? i = some r) (henable : r.enable = true)
    (hlistens : pathTag i r path = some c.inboundTag) {primary : Option String}
    (hshadows : ∀ p, (p, c.inboundTag) ∈ shadowTags parts ↔ primary = some p) :
    s.hubDecision py digest parts c =
        (decision (ruleHolds c) ruleTarget (s.pathRules py digest i path)).or
          (s.storedDecision (ruleCovers primary c)) ∧
      s.Owned py digest i path c := by
  have howner : ∀ row ∈ s.matrixRows "hub", s.rowTag py "hub" row = some c.inboundTag →
      row.1.2 = (i, path) := fun row _ htag =>
    owner_of_rowTag hkept hstrip hapart hr henable hlistens htag
  constructor
  · rw [hubDecision_eq hkept hshadows, decision_matrixRules_path howner]
  · intro row hrow rule hrule hholds
    have hlists : listsTag rule c.inboundTag = true := (Bool.and_eq_true_iff.mp hholds).1
    exact howner row hrow (rowTag_of_listsTag hrule hlists)

/-- The tunnel listener of an inbound has no other primary listener. -/
theorem shadow_iff (hkept : Kept cfg s.toCoreStore) (hbuild : buildInbounds s.toCoreStore = .ok parts)
    (hr : s.inbounds.get? i = some r) (h : (r.tag, c.inboundTag) ∈ shadowTags parts) :
    pathTag i r .tunnel = some c.inboundTag ∧
      ∀ tag, (tag, c.inboundTag) ∈ shadowTags parts ↔ some r.tag = some tag := by
  have hsame : ∀ {j : ℕ} {q : Inbound}, s.inbounds.get? j = some q → q.tag = r.tag →
      j = i ∧ q = r := by
    intro j q hq htag
    by_cases hij : j = i
    · subst hij
      exact ⟨rfl, Option.some.inj (hq.symm.trans hr)⟩
    · exact absurd htag (hkept.apart j i q r hq hr hij).tag
  obtain ⟨j, q, p, hq, -, hp, htag, hshadow⟩ := mem_shadowTags hbuild h
  obtain ⟨rfl, rfl⟩ := hsame hq htag
  refine ⟨by simp [pathTag, hp, hshadow], fun tag => ?_⟩
  constructor
  · intro hmem
    obtain ⟨k, v, p', hv, -, -, rfl, hshadow'⟩ := mem_shadowTags hbuild hmem
    obtain rfl := tunnelTag_inj (hshadow'.trans hshadow.symm)
    rw [Option.some.inj (hv.symm.trans hq)]
  · intro hsome
    rw [← Option.some.inj hsome]
    exact h

/-- Connections of both listeners of an inbound.  On the primary listener the policy for direct
access comes first and then the stored rules.  On the tunnel listener the policy for the tunnel
comes first, and then the stored rules that apply to the same connection on the primary
listener, or name the tunnel listener itself.  No policy of another inbound or access path
applies to either. -/
theorem tunnel_routed_like_inbound (hkept : Kept cfg s.toCoreStore)
    (hstrip : ∀ t, tagRe t = true → py.strip t = t) (hapart : TunnelTagsApart s.toCoreStore)
    (hbuild : buildInbounds s.toCoreStore = .ok parts) (hr : s.inbounds.get? i = some r)
    (henable : r.enable = true) :
    (∀ c : Connection, c.inboundTag = r.tag →
      s.hubDecision py digest parts c =
          (decision (ruleHolds c) ruleTarget (s.pathRules py digest i .direct)).or
            (s.storedDecision (ruleHolds c)) ∧
        s.Owned py digest i .direct c) ∧
    ∀ c : Connection, (r.tag, c.inboundTag) ∈ shadowTags parts →
      s.hubDecision py digest parts c =
          (decision (ruleHolds c) ruleTarget (s.pathRules py digest i .tunnel)).or
            (s.storedDecision fun rule =>
              ruleHolds { c with inboundTag := r.tag } rule || ruleHolds c rule) ∧
        s.Owned py digest i .tunnel c ∧
        ((∀ rule ∈ baseRules s.routing, listsTag rule c.inboundTag = true →
            listsTag rule r.tag = true) →
          s.hubDecision py digest parts c =
            (decision (ruleHolds c) ruleTarget (s.pathRules py digest i .tunnel)).or
              (s.storedDecision (ruleHolds { c with inboundTag := r.tag }))) := by
  constructor
  · intro c hc
    have hnone : ∀ tag, (tag, c.inboundTag) ∈ shadowTags parts ↔ none = some tag := by
      intro tag
      refine ⟨fun hmem => ?_, fun hsome => (by cases hsome)⟩
      obtain ⟨j, q, p, hq, hdeployed, hp, -, hshadow⟩ := mem_shadowTags hbuild hmem
      have hqe : q.enable = true := (Bool.and_eq_true_iff.mp hdeployed).1
      exact absurd (hc.symm.trans hshadow.symm) (hapart i r j q p hr hq henable hqe hp)
    have hrouted : s.hubDecision py digest parts c =
        (decision (ruleHolds c) ruleTarget (s.pathRules py digest i .direct)).or
          (s.storedDecision (ruleCovers none c)) ∧ s.Owned py digest i .direct c :=
      routed_of_pathTag hkept hstrip hapart hr henable (by rw [pathTag, hc]) hnone
    refine ⟨?_, hrouted.2⟩
    rw [hrouted.1, MatrixStore.storedDecision, MatrixStore.storedDecision]
    congr 1
    refine decision_congr_left fun rule _ => ?_
    simp [ruleCovers, ruleHolds]
  · intro c hc
    obtain ⟨hpath, hshadows⟩ := shadow_iff hkept hbuild hr hc
    have hrouted : s.hubDecision py digest parts c =
        (decision (ruleHolds c) ruleTarget (s.pathRules py digest i .tunnel)).or
          (s.storedDecision (ruleCovers (some r.tag) c)) ∧ s.Owned py digest i .tunnel c :=
      routed_of_pathTag hkept hstrip hapart hr henable hpath hshadows
    have hstored : s.storedDecision (ruleCovers (some r.tag) c) = s.storedDecision fun rule =>
        ruleHolds { c with inboundTag := r.tag } rule || ruleHolds c rule :=
      decision_congr_left fun rule hrule =>
        ruleCovers_eq hrule (hkept.rules rule (List.mem_filter.mp hrule).1) r.tag
    rw [hstored] at hrouted
    refine ⟨hrouted.1, hrouted.2, fun hnamed => ?_⟩
    rw [hrouted.1]
    congr 1
    refine decision_congr_left fun rule hrule => ?_
    have hcond : conditionsHold rule { c with inboundTag := r.tag } = conditionsHold rule c := rfl
    unfold ruleHolds
    rw [hcond, ← Bool.and_or_distrib_right]
    cases hlists : listsTag rule c.inboundTag with
    | false => simp
    | true => simp [hnamed rule hrule hlists]

end Routing

/-! ## Two inbounds -/

/-- Tags have no blanks to strip. -/
theorem strip_ascii (t : String) (h : tagRe t = true) : Builtins.ascii.strip t = t := by
  have hchars : ∀ c ∈ t.toList, ¬ (decide (c = ' ')) = true := by
    intro c hc hblank
    have hall : t.toList.all tagChar = true := (Bool.and_eq_true_iff.mp h).2
    have htag := List.all_eq_true.mp hall c hc
    rw [of_decide_eq_true hblank] at htag
    exact absurd htag (by decide)
  have hkeep : ∀ cs : List Char, (∀ c ∈ cs, ¬ (decide (c = ' ')) = true) →
      cs.dropWhile (· = ' ') = cs := by
    intro cs hcs
    cases cs with
    | nil => rfl
    | cons c cs => rw [List.dropWhile_cons, if_neg (hcs c List.mem_cons_self)]
  change String.ofList ((t.toList.dropWhile (· = ' ')).reverse.dropWhile (· = ' ')).reverse = t
  rw [hkeep _ hchars, hkeep _ fun c hc => hchars c (List.mem_reverse.mp hc), List.reverse_reverse,
    String.ofList_toList]

/-- The store after a list of edits, with a Traffic Matrix. -/
def matrixStore (es : List Edit) (matrix : Table (String × ℕ × AccessPath) MatrixPolicy) :
    MatrixStore where
  toCoreStore := editAll es
  matrix := matrix

theorem toCoreStore_matrixStore (es : List Edit)
    (matrix : Table (String × ℕ × AccessPath) MatrixPolicy) :
    (matrixStore es matrix).toCoreStore = editAll es :=
  rfl

/-- A rule of Advanced Routing that blocks one listener. -/
def blockListener (tag : String) : Edit :=
  .saveSection .routing (.dict [("rules", .list [.dict [("inboundTag", .list [.str tag]),
    ("outboundTag", .str "block")]])])

/-- A connection that meets no other condition. -/
def plainConnection (tag : String) : Connection where
  inboundTag := tag
  meets := fun _ _ => false

/-- Two inbounds, of which the first is blocked by a stored rule. -/
def blockedFirst : MatrixStore :=
  matrixStore (twoInbounds "second" ++ [blockListener "first"])
    (Table.empty.insert ("hub", 1, .direct) .adblock)

/-- The listeners of the two inbounds, what the policy and the stored rules say about a
connection of the primary listener of the first, and that no stored rule names its tunnel
listener. -/
theorem blockedFirst_decides :
    (buildInbounds blockedFirst.toCoreStore).toOption.map shadowTags =
        some [("first", "dark-tunnel-1-2000"), ("second", "dark-tunnel-2-4000")] ∧
      blockedFirst.inbounds.rows.map (fun row => (row.1, row.2.tag, row.2.enable)) =
        [(1, "first", true), (2, "second", true)] ∧
      decision (ruleHolds (plainConnection "first")) ruleTarget
        (blockedFirst.pathRules Builtins.ascii id 1 .direct) = some (.outbound "direct") ∧
      blockedFirst.pathRules Builtins.ascii id 1 .tunnel = [] ∧
      blockedFirst.storedDecision (ruleHolds (plainConnection "first")) = some (.outbound "block") ∧
      ∀ rule ∈ baseRules blockedFirst.routing,
        listsTag rule "dark-tunnel-1-2000" = true → listsTag rule "first" = true := by
  decide +kernel

/-- No inbound carries the tag of a tunnel listener. -/
theorem tunnelTagsApart_blockedFirst : TunnelTagsApart blockedFirst.toCoreStore := by
  obtain ⟨-, hrows, -⟩ := blockedFirst_decides
  intro i r j q p hr _ _ _ _ htag
  have hmem : (i, r.tag, r.enable) ∈
      blockedFirst.inbounds.rows.map fun row => (row.1, row.2.tag, row.2.enable) :=
    List.mem_map.mpr ⟨(i, r), Table.get?_eq_some_iff.mp hr, rfl⟩
  rw [hrows, List.mem_pair, Prod.mk.injEq, Prod.mk.injEq, Prod.mk.injEq, Prod.mk.injEq] at hmem
  have hlist := congrArg String.toList htag
  rw [toList_tunnelTag] at hlist
  rcases hmem with ⟨-, hone, -⟩ | ⟨-, htwo, -⟩
  · rw [hone] at hlist
    simp at hlist
  · rw [htwo] at hlist
    simp at hlist

/-- The policy lets the connections of the primary listener of the first inbound through; those
of its tunnel listener have no policy, and the stored rule for the inbound blocks them. -/
theorem tunnel_routed_like_inbound_first : ∃ parts r,
    buildInbounds blockedFirst.toCoreStore = .ok parts ∧
      blockedFirst.inbounds.get? 1 = some r ∧ ("first", "dark-tunnel-1-2000") ∈ shadowTags parts ∧
      (blockedFirst.hubDecision Builtins.ascii id parts (plainConnection "first") =
          some (.outbound "direct") ∧
        blockedFirst.Owned Builtins.ascii id 1 .direct (plainConnection "first")) ∧
      blockedFirst.hubDecision Builtins.ascii id parts (plainConnection "dark-tunnel-1-2000") =
          some (.outbound "block") ∧
        blockedFirst.Owned Builtins.ascii id 1 .tunnel (plainConnection "dark-tunnel-1-2000") := by
  obtain ⟨hshadow, hrows, hpolicy, hfree, hstored, hnamed⟩ := blockedFirst_decides
  obtain ⟨parts, hparts, hpairs⟩ := Option.map_eq_some_iff.mp hshadow
  have hbuild : buildInbounds blockedFirst.toCoreStore = .ok parts := by
    cases hresult : buildInbounds blockedFirst.toCoreStore with
    | error e =>
        rw [hresult] at hparts
        cases hparts
    | ok parts' =>
        rw [hresult] at hparts
        rw [Option.some.inj hparts]
  obtain ⟨⟨i, r⟩, hrow, hseen⟩ := List.mem_map.mp (hrows.symm ▸ List.mem_cons_self)
  obtain ⟨rfl, htag, henable⟩ : i = 1 ∧ r.tag = "first" ∧ r.enable = true := by
    simpa using hseen
  have hr : blockedFirst.inbounds.get? 1 = some r := Table.get?_eq_some_iff.mpr hrow
  have hrun : Run (Edited Builtins.ascii Config.default) CoreStore.fresh
      (twoInbounds "second" ++ [blockListener "first"]) blockedFirst.toCoreStore := by
    rw [blockedFirst, toCoreStore_matrixStore]
    exact run_editAll _
  have hkept : Kept Config.default blockedFirst.toCoreStore := kept_run hrun
  obtain ⟨hdirect, htunnel⟩ := @tunnel_routed_like_inbound Builtins.ascii Config.default id
    blockedFirst 1 r parts hkept strip_ascii tunnelTagsApart_blockedFirst hbuild hr henable
  have hmem : ("first", "dark-tunnel-1-2000") ∈ shadowTags parts := by
    rw [hpairs]
    exact List.mem_cons_self
  refine ⟨parts, r, hbuild, hr, hmem, ?_, ?_⟩
  · obtain ⟨hdecides, howned⟩ := hdirect (plainConnection "first") htag.symm
    rw [hpolicy] at hdecides
    exact ⟨hdecides, howned⟩
  · rw [htag] at htunnel
    obtain ⟨-, howned, hlike⟩ := htunnel (plainConnection "dark-tunnel-1-2000") hmem
    have hsame : { plainConnection "dark-tunnel-1-2000" with inboundTag := "first" } =
      plainConnection "first" := rfl
    have hdecides := hlike hnamed
    rw [hfree, hsame, hstored] at hdecides
    exact ⟨hdecides, howned⟩

/-- Two inbounds, and a stored rule that blocks the tunnel listener of the first by its tag. -/
def blockedTunnel : MatrixStore :=
  matrixStore (twoInbounds "second" ++ [blockListener "dark-tunnel-1-2000"]) Table.empty

/-- Two inbounds of which the second has the tag of the tunnel listener of the first, and a
policy for direct access to the second. -/
def takenTunnel : MatrixStore :=
  matrixStore (twoInbounds "dark-tunnel-1-2000") (Table.empty.insert ("hub", 2, .direct) .normal)

/-- A stored rule may name a tunnel listener itself: its connections are blocked, where the
stored rules decide nothing about the same connection on the primary listener and there is no
policy.  And an inbound may have the tag of the tunnel listener of another one: its policy then
applies to connections of that listener. -/
theorem tunnel_routed_apart :
    ((buildInbounds blockedTunnel.toCoreStore).toOption.map fun parts =>
        (shadowTags parts, blockedTunnel.hubDecision Builtins.ascii id parts
          (plainConnection "dark-tunnel-1-2000"))) =
      some ([("first", "dark-tunnel-1-2000"), ("second", "dark-tunnel-2-4000")],
        some (.outbound "block")) ∧
    blockedTunnel.storedDecision (ruleHolds (plainConnection "first")) = none ∧
    blockedTunnel.matrixRows "hub" = [] ∧
    ((buildInbounds takenTunnel.toCoreStore).toOption.map shadowTags) =
      some [("first", "dark-tunnel-1-2000"), ("dark-tunnel-1-2000", "dark-tunnel-2-4000")] ∧
    (((takenTunnel.matrixRows "hub").any fun row =>
      (takenTunnel.rowRules Builtins.ascii id "hub" row).any fun rule =>
        ruleHolds (plainConnection "dark-tunnel-1-2000") rule && row.1.2 ≠ (1, .tunnel)) = true) := by
  decide +kernel

end Core
end DarkXray
