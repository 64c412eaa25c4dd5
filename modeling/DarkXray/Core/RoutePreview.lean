import DarkXray.Core.Sections
import DarkXray.Library.Kleene
import Mathlib.Data.List.Infix

/-!
# The preview of a route

{lit}`traffic_preview` says which rule of the saved routing takes a connection, without asking
the core.  What it cannot evaluate offline, it leaves open: the verdict of a rule has three
values, and the search stops at the first rule that is not refuted.

The entries left open are settled by a fixing, and under a fixing every rule has a truth value.
Two kinds of lists are read wrongly.  An address list is accepted by its readable negated
entries although a further negated entry is open; and a domain list takes an entry that names
geodata but does not begin with {lit}`geosite:` or {lit}`ext:` for plain text.

Main results:

- Theorem {lit}`never_iff`: a rule holds under no fixing exactly if one of its conditions is
  not possible.
- Theorem {lit}`always_iff`: an accepted rule holds under every fixing exactly if each of its
  conditions is firm.
- Theorem {lit}`preview_truthful_iff`: the answer of a preview claims no more than is known
  exactly if each rule that it reaches is refuted only if it is not possible, and accepted only
  if it is firm.
-/

namespace DarkXray
namespace Core

open Library

/-! ## Matching -/

/-- Functions of the Python library that the preview calls; {lit}`none` is a {lit}`ValueError`
of {lit}`ipaddress` and an error of {lit}`re`. -/
structure Matcher (α : Type) extends Builtins where
  address : String → Option α
  inNetwork : String → α → Option Bool
  search : String → String → Option Bool

/-- {lit}`TrafficRoutePreview`. -/
structure RoutePreview where
  domain : String
  ip : String
  port : ℕ
  sourceIp : String
  sourcePort : ℕ
  localIp : String
  localPort : ℕ
  network : String
  protocol : String
  user : String
  inboundTag : String
  process : String
  vlessRoute : ℕ
  attrs : List (String × String)
deriving DecidableEq, Repr

/-- A request with the default values. -/
def RoutePreview.default : RoutePreview :=
  ⟨"", "", 0, "", 0, "", 0, "tcp", "", "", "", "", 0, []⟩

/-- {lit}`s.startswith(start)`. -/
def startsWith (start s : String) : Bool :=
  start.toList.isPrefixOf s.toList

/-- {lit}`s[n:]`. -/
def dropChars (n : ℕ) (s : String) : String :=
  String.ofList (s.toList.drop n)

/-- {lit}`part in s`. -/
def within (part s : String) : Bool :=
  decide (part.toList <:+: s.toList)

section Matching

variable {α : Type} (py : Matcher α)

/-- One part of a port expression. -/
def portPartMatch (value : ℕ) (raw : String) : Bool :=
  let part := py.strip raw
  if '-' ∈ part.toList then
    let lo := part.toList.takeWhile (· ≠ '-')
    let hi := part.toList.drop (lo.length + 1)
    ((py.int (String.ofList lo)).bind fun lo =>
      (py.int (String.ofList hi)).map fun hi => (lo, hi)).elim false
        fun range => range.1 ≤ value && value ≤ range.2
  else (py.int part).elim false fun n => n = value

/-- The parts of a saved port expression, which is a number or a text. -/
def portParts : Doc → List String
  | .atom (.str s) => splitAt ',' s
  | .atom a => [a.text]
  | _ => []

/-- A port expression is there, {lit}`not in (None,'')`. -/
def portGiven : Option Doc → Bool
  | none => false
  | some (.atom .null) => false
  | some (.atom (.str s)) => s ≠ ""
  | some _ => true

/-- {lit}`_port_match`. -/
def portMatch (expr : Option Doc) (value : ℕ) : Bool :=
  if !portGiven expr then true
  else if value = 0 then false
  else expr.elim false fun d => (portParts d).any (portPartMatch py value)

/-- One pattern of {lit}`_domain_match`. -/
def domainEntry (domain p : String) : Option Bool :=
  let lowered := rstripDots (py.lower domain)
  if startsWith "geosite:" p || startsWith "ext:" p then none
  else if startsWith "full:" p then
    some (lowered = rstripDots (py.lower (dropChars 5 p)))
  else if startsWith "domain:" p then
    let base := rstripDots (py.lower (dropChars 7 p))
    some (lowered = base || ("." ++ base).toList.isSuffixOf lowered.toList)
  else if startsWith "regexp:" p then py.search (dropChars 7 p) domain
  else if startsWith "keyword:" p then some (within (py.lower (dropChars 8 p)) lowered)
  else if startsWith "dotless:" p then
    some ('.' ∉ domain.toList && within (dropChars 8 p) domain)
  else some (within (py.lower p) lowered)

/-- {lit}`_domain_match`. -/
def domainMatch (patterns : List String) (domain : String) : Option Bool :=
  if patterns = [] then some true
  else if domain = "" then some false
  else firstHit (domainEntry py domain) patterns false

/-- {lit}`raw.startswith('!')`. -/
def negated (raw : String) : Bool :=
  startsWith "!" raw

/-- An entry without its negation. -/
def bare (raw : String) : String :=
  if negated raw then dropChars 1 raw else raw

/-- {lit}`_ip_item`. -/
def ipItem (address : α) (raw : String) : Option Bool :=
  if startsWith "geoip:" (bare raw) || startsWith "ext:" (bare raw) then none
  else (py.inNetwork (bare raw) address).map fun matched => matched != negated raw

/-- The address of a request, if it has one. -/
def addressOf (rawIp : String) : Option α :=
  if rawIp = "" then none else py.address rawIp

/-- {lit}`_ip_match`. -/
def ipMatch (patterns : List String) (rawIp : String) (dnsIndeterminate : Bool) : Option Bool :=
  if patterns = [] then some true
  else if rawIp = "" then (if dnsIndeterminate then none else some false)
  else match py.address rawIp with
    | none => some false
    | some address =>
        let positives := (patterns.filter (!negated ·)).filterMap (ipItem py address)
        let inverses := (patterns.filter negated).filterMap (ipItem py address)
        if positives.any id then some true
        else if !inverses.isEmpty && inverses.all id then some true
        else if patterns.any fun raw => ipItem py address raw = none then none
        else some false

/-- One token of {lit}`_string_list_match`. -/
def stringEntry (regexAllowed process : Bool) (current token : String) : Option Bool :=
  if process && (startsWith "self/" token || startsWith "xray/" token) then none
  else if regexAllowed && startsWith "regexp:" token then py.search (dropChars 7 token) current
  else some (token = current)

/-- {lit}`_string_list_match`. -/
def stringListMatch (values : List String) (current : String) (regexAllowed process : Bool) :
    Option Bool :=
  if values = [] then some true
  else if current = "" then some false
  else firstHit (stringEntry py regexAllowed process current) values false

/-- {lit}`lowered.get(str(key).lower())`; a later attribute of the same name replaces an
earlier one. -/
def attrValue (given : List (String × String)) (key : String) : Option String :=
  (given.reverse.find? fun a => py.lower a.1 = py.lower key).map Prod.snd

/-- One attribute of a rule. -/
def attrEntry (given : List (String × String)) (attr : String × String) : Option Bool :=
  (attrValue py given attr.1).elim (some false) (py.search attr.2)

/-- The checks of the attributes of a rule. -/
def attrsMatch (attrs given : List (String × String)) : Option Bool :=
  if given = [] then some false else firstMiss (attrEntry py given) attrs false

end Matching

/-! ## Rules -/

/-- A condition of a rule with the values of the request that it is about. -/
inductive Condition where
  | domains (patterns : List String) (domain : String)
  | addresses (field : String) (patterns : List String) (rawIp : String) (dnsIndeterminate : Bool)
  | port (expr : Option Doc) (value : ℕ)
  | networks (allowed : List String) (network : String)
  | listed (field : String) (values : List String) (current : String)
      (regexAllowed process : Bool)
  | attributes (patterns given : List (String × String))

/-- The texts of a list in a saved rule; {lit}`source` is the old name of {lit}`sourceIP`. -/
def patternsAt (rule : Doc) (field : String) : List String :=
  let raw := if field = "sourceIP" then (rule.get? "sourceIP").or (rule.get? "source")
    else rule.get? field
  ((raw.bind Doc.list?).getD []).filterMap Doc.str?

/-- A text in a field, which may be missing. -/
def textOr (d : Doc) (key default : String) : String :=
  ((d.get? key).bind Doc.str?).getD default

/-- The attributes of a saved rule. -/
def attrsAt (rule : Doc) : List (String × String) :=
  (((rule.get? "attrs").bind Doc.dict?).getD []).filterMap fun f => f.2.str?.map fun s => (f.1, s)

/-- The checks that {lit}`_rule_eval` collects. -/
def ruleConditions (rule : Doc) (body : RoutePreview) (domainStrategy : String) :
    List Condition :=
  let listed (field : String) (c : List String → Condition) : List Condition :=
    if patternsAt rule field = [] then [] else [c (patternsAt rule field)]
  let ported (field : String) (value : ℕ) : List Condition :=
    if portGiven (rule.get? field) then [.port (rule.get? field) value] else []
  listed "domain" (.domains · body.domain) ++
  listed "ip" (.addresses "ip" · body.ip (body.domain ≠ "" && domainStrategy ≠ "AsIs")) ++
  ported "port" body.port ++
  ported "sourcePort" body.sourcePort ++
  ported "localPort" body.localPort ++
  ported "vlessRoute" body.vlessRoute ++
  listed "sourceIP" (.addresses "sourceIP" · body.sourceIp false) ++
  listed "localIP" (.addresses "localIP" · body.localIp false) ++
  (if rule.truthyAt "network" then [.networks (splitAt ',' (textOr rule "network" "")) body.network]
    else []) ++
  listed "protocol" (.listed "protocol" · body.protocol false false) ++
  listed "inboundTag" (.listed "inboundTag" · body.inboundTag false false) ++
  listed "user" (.listed "user" · body.user true false) ++
  listed "process" (.listed "process" · body.process false true) ++
  (if attrsAt rule = [] then [] else [.attributes (attrsAt rule) body.attrs])

section Preview

variable {α : Type} (py : Matcher α)

/-- The check of a condition. -/
def Condition.verdict : Condition → Option Bool
  | .domains patterns domain => domainMatch py patterns domain
  | .addresses _ patterns rawIp dnsIndeterminate => ipMatch py patterns rawIp dnsIndeterminate
  | .port expr value => some (portMatch py expr value)
  | .networks allowed network => some (decide (network ∈ allowed))
  | .listed _ values current regexAllowed process =>
      stringListMatch py values current regexAllowed process
  | .attributes patterns given => attrsMatch py patterns given

/-- {lit}`_rule_eval`. -/
def ruleEval (body : RoutePreview) (domainStrategy : String) (rule : Doc) : Option Bool :=
  allOf ((ruleConditions rule body domainStrategy).map (Condition.verdict py))

/-! ## The preview -/

/-- The last document with a tag, as a dictionary by tags has it. -/
def taggedLast (docs : List Doc) (tag : String) : Option Doc :=
  docs.reverse.find? fun d => textOr d "tag" "" = tag

/-- The outbound that an outbound dials through. -/
def dialsVia (outbound : Doc) : String :=
  textOr ((outbound.getD "streamSettings" (.dict [])).getD "sockopt" (.dict [])) "dialerProxy" ""

/-- The loop of {lit}`_outbound_chain`.  Every round adds the tag of another outbound, so it
ends before the fuel does if there is as much as outbounds. -/
def outboundChain (outbounds : List Doc) : ℕ → List String → String → List String
  | 0, chain, _ => chain
  | fuel + 1, chain, current =>
      match taggedLast outbounds current with
      | none => chain
      | some out =>
          if current = "" ∨ current ∈ chain then chain
          else outboundChain outbounds fuel (chain ++ [current]) (dialsVia out)

/-- The values of {lit}`result`. -/
inductive PreviewResult where
  | indeterminate
  | matched
  | default
deriving DecidableEq, Repr

/-- A line of {lit}`trace`. -/
structure TraceLine where
  index : ℕ
  ruleTag : String
  result : Option Bool
  target : String
deriving DecidableEq, Repr

/-- The document that {lit}`traffic_preview` returns. -/
structure PreviewAnswer where
  result : PreviewResult
  ruleIndex : ℕ
  ruleTag : String := ""
  targetType : String := ""
  target : String := ""
  balancerStrategy : String := ""
  candidates : List String := []
  selectedOutbound : String := ""
  chain : List String := []
  reason : String := ""
  trace : List TraceLine
deriving DecidableEq, Repr

/-- The answer at a rule that is not known to hold or not to hold. -/
def indeterminateAnswer (index : ℕ) (trace : List TraceLine) (rule : Doc) : PreviewAnswer where
  result := .indeterminate
  ruleIndex := index + 1
  ruleTag := textOr rule "ruleTag" ""
  reason := "This earlier rule needs DNS/geodata/process information that DARK cannot " ++
    "safely infer offline."
  trace := trace

/-- The answer at a rule that holds and names an outbound. -/
def outboundAnswer (outbounds : List Doc) (index : ℕ) (trace : List TraceLine) (rule : Doc) :
    PreviewAnswer where
  result := .matched
  ruleIndex := index + 1
  ruleTag := textOr rule "ruleTag" ""
  targetType := "outbound"
  target := textOr rule "outboundTag" ""
  selectedOutbound := textOr rule "outboundTag" ""
  chain := outboundChain outbounds outbounds.length [] (textOr rule "outboundTag" "")
  trace := trace

/-- The tags that begin with a selector of a balancer. -/
def balancerCandidates (outbounds : List Doc) (balancer : Doc) : List String :=
  (outbounds.map (textOr · "tag" "")).filter fun tag =>
    (patternsAt balancer "selector").any fun s => startsWith s tag

/-- The answer at a rule that holds and names a balancer. -/
def balancerAnswer (outbounds balancers : List Doc) (index : ℕ) (trace : List TraceLine)
    (rule : Doc) : PreviewAnswer :=
  let tag := textOr rule "balancerTag" ""
  let balancer := (taggedLast balancers tag).getD (.dict [])
  let candidates := balancerCandidates outbounds balancer
  let selected := if candidates.length = 1 then candidates.headD "" else ""
  { result := .matched
    ruleIndex := index + 1
    ruleTag := textOr rule "ruleTag" ""
    targetType := "balancer"
    target := tag
    balancerStrategy := textOr (balancer.getD "strategy" (.dict [])) "type" "random"
    candidates := candidates
    selectedOutbound := selected
    chain := if selected = "" then [] else outboundChain outbounds outbounds.length [] selected
    reason := if selected = "" then
      "Balancer strategy/live Observatory decides the final outbound at runtime." else ""
    trace := trace }

/-- The answer if no rule holds: the first outbound. -/
def defaultAnswer (outbounds : List Doc) (trace : List TraceLine) : PreviewAnswer :=
  let tag := outbounds.head?.elim "" (textOr · "tag" "")
  { result := .default
    ruleIndex := 0
    targetType := "outbound"
    target := tag
    selectedOutbound := tag
    chain := outboundChain outbounds outbounds.length [] tag
    trace := trace }

/-- The loop of {lit}`traffic_preview` over the rules from an index on. -/
def previewFrom (outbounds balancers : List Doc) (body : RoutePreview) (domainStrategy : String) :
    ℕ → List TraceLine → List Doc → PreviewAnswer
  | _, trace, [] => defaultAnswer outbounds trace
  | index, trace, rule :: rules =>
      let result := ruleEval py body domainStrategy rule
      let target := if rule.truthyAt "outboundTag" then textOr rule "outboundTag" ""
        else textOr rule "balancerTag" ""
      let trace := trace ++ [⟨index + 1, textOr rule "ruleTag" "", result, target⟩]
      match result with
      | none => indeterminateAnswer index trace rule
      | some false => previewFrom outbounds balancers body domainStrategy (index + 1) trace rules
      | some true =>
          if rule.truthyAt "outboundTag" then outboundAnswer outbounds index trace rule
          else balancerAnswer outbounds balancers index trace rule

/-- The address of a request is valid if it has one. -/
def checkAddress (raw message : String) : Except (ℕ × String) Unit :=
  if raw ≠ "" ∧ py.address raw = none then .error (400, message) else .ok ()

/-- {lit}`traffic_preview` on the saved sections. -/
def trafficPreview (outbounds : List Doc) (routing : Doc) (body : RoutePreview) :
    Except (ℕ × String) PreviewAnswer := do
  checkAddress py body.ip "Invalid target IP"
  checkAddress py body.sourceIp "Invalid source IP"
  checkAddress py body.localIp "Invalid local IP"
  return previewFrom py outbounds ((routing.itemsAt "balancers").filter Doc.isDict) body
    (textOr routing "domainStrategy" "AsIs") 0 [] (routing.itemsAt "rules")

/-! ## Fixings -/

/-- The truth of the entries that are left open, by the field of the rule and the entry without
its negation. -/
abbrev Fixing :=
  String → String → Bool

/-- Entries that name geodata. -/
def geodata (token : String) : Bool :=
  startsWith "geosite:" token || startsWith "geoip:" token || startsWith "ext:" token

variable (σ : Fixing)

/-- A pattern for domains holds. -/
def domainEntryHolds (domain p : String) : Bool :=
  if geodata (bare p) then σ "domain" (bare p) != negated p
  else (domainEntry py domain p).getD (σ "domain" p)

/-- An entry of an address list holds. -/
def ipEntryHolds (field : String) (address : α) (raw : String) : Bool :=
  (ipItem py address raw).getD (σ field (bare raw) != negated raw)

/-- An address list holds: some positive entry does, or it has negated entries and all of them
do. -/
def ipListHolds (field : String) (address : α) (patterns : List String) : Bool :=
  (patterns.filter (!negated ·)).any (ipEntryHolds py σ field address) ||
    (patterns.any negated && (patterns.filter negated).all (ipEntryHolds py σ field address))

/-- A condition holds. -/
def Condition.holds : Condition → Bool
  | .domains patterns domain =>
      patterns = [] || (domain ≠ "" && patterns.any (domainEntryHolds py σ domain))
  | .addresses field patterns rawIp _ =>
      patterns = [] || (addressOf py rawIp).elim false fun address =>
        ipListHolds py σ field address patterns
  | .port expr value => portMatch py expr value
  | .networks allowed network => decide (network ∈ allowed)
  | .listed field values current regexAllowed process =>
      values = [] || (current ≠ "" && values.any fun token =>
        (stringEntry py regexAllowed process current token).getD (σ field token))
  | .attributes patterns given =>
      given ≠ [] && patterns.all fun attr =>
        (attrEntry py given attr).getD (σ ("attrs:" ++ attr.1) attr.2)

/-- A rule holds: all its conditions do. -/
def holdsUnder (body : RoutePreview) (domainStrategy : String) (rule : Doc) : Bool :=
  (ruleConditions rule body domainStrategy).all (Condition.holds py σ)

/-- What an answer says: the rule found or unclear, or none. -/
def PreviewAnswer.finding (answer : PreviewAnswer) : Finding :=
  match answer.result with
  | .matched => .found (answer.ruleIndex - 1)
  | .indeterminate => .unclear (answer.ruleIndex - 1)
  | .default => .nothing

/-! ## Firm and possible conditions -/

/-- An accepted condition that no fixing can make fail: a readable entry of a domain list hits,
or a token of geodata is listed with its negation; and a readable positive entry of an address
list hits, or every open negated entry is listed without the negation too. -/
def Condition.Firm : Condition → Prop
  | .domains patterns domain => patterns = [] ∨
      (∃ p ∈ patterns, geodata (bare p) = false ∧ domainEntry py domain p = some true) ∨
      ∃ p ∈ patterns, geodata (bare p) = true ∧ negated p = true ∧ bare p ∈ patterns
  | .addresses _ patterns rawIp _ => ∀ address, addressOf py rawIp = some address →
      (∃ p ∈ patterns, negated p = false ∧ ipItem py address p = some true) ∨
      ∀ p ∈ patterns, negated p = true → ipItem py address p = none →
        bare p ∈ patterns ∧ negated (bare p) = false
  | _ => True

/-- A condition that some fixing makes hold: it is not refuted, or it is a domain list with an
entry that names geodata; and an address list that is not accepted has an open positive entry,
or no readable one among its negated entries fails. -/
def Condition.Possible : Condition → Prop
  | .domains patterns domain => domainMatch py patterns domain ≠ some false ∨
      (domain ≠ "" ∧ ∃ p ∈ patterns, geodata (bare p) = true)
  | .addresses _ patterns rawIp dnsIndeterminate =>
      ipMatch py patterns rawIp dnsIndeterminate = some true ∨
      ∃ address, addressOf py rawIp = some address ∧
        ((∃ p ∈ patterns, negated p = false ∧ ipItem py address p = none) ∨
        ((∃ p ∈ patterns, negated p = true) ∧
          ∀ p ∈ patterns, negated p = true → ipItem py address p ≠ some false))
  | c => c.verdict py ≠ some false

variable (body : RoutePreview) (domainStrategy : String)

/-- No condition of an accepted rule can fail. -/
def RuleFirm (rule : Doc) : Prop :=
  ∀ c ∈ ruleConditions rule body domainStrategy, c.Firm py

/-- All conditions of a rule can hold. -/
def RulePossible (rule : Doc) : Prop :=
  ∀ c ∈ ruleConditions rule body domainStrategy, c.Possible py

/-! ## Readings -/

variable {py σ}

/-- A text starts with another one. -/
theorem startsWith_iff {start s : String} :
    startsWith start s = true ↔ start.toList <+: s.toList := by
  rw [startsWith, List.isPrefixOf_iff_prefix]

/-- A text that begins with another character is no negated entry. -/
theorem negated_of_startsWith {start s : String} (h : startsWith start s = true)
    (hhead : ∃ c cs, start.toList = c :: cs ∧ c ≠ '!') : negated s = false := by
  rw [startsWith_iff] at h
  obtain ⟨c, cs, hstart, hc⟩ := hhead
  obtain ⟨rest, hrest⟩ := h
  rw [negated, Bool.eq_false_iff, ne_eq, startsWith_iff, ← hrest, hstart]
  intro hbang
  exact hc (List.cons_prefix_cons.mp hbang).1.symm

/-- A token that names geodata is not negated. -/
theorem negated_of_geodata {token : String} (h : geodata token = true) : negated token = false := by
  unfold geodata at h
  simp only [Bool.or_eq_true] at h
  rcases h with (h | h) | h
  · exact negated_of_startsWith h ⟨'g', _, rfl, by decide⟩
  · exact negated_of_startsWith h ⟨'g', _, rfl, by decide⟩
  · exact negated_of_startsWith h ⟨'e', _, rfl, by decide⟩

/-- A token that is not negated is bare. -/
@[simp]
theorem bare_of_not_negated {raw : String} (h : negated raw = false) : bare raw = raw := by
  simp [bare, h]

/-- A domain pattern is open only if it names geodata or is an expression. -/
theorem domainEntry_eq_none {domain p : String} (h : domainEntry py domain p = none) :
    negated p = false := by
  unfold domainEntry at h
  split_ifs at h with hgeo hfull hdomain hregexp
  · cases Bool.or_eq_true _ _ ▸ hgeo with
    | inl hsite => exact negated_of_startsWith hsite ⟨'g', _, rfl, by decide⟩
    | inr hext => exact negated_of_startsWith hext ⟨'e', _, rfl, by decide⟩
  · exact negated_of_startsWith hregexp ⟨'r', _, rfl, by decide⟩

/-- The reading of an entry is the reading of its token, up to the negation. -/
theorem ipItem_eq_none_iff {address : α} {raw : String} :
    ipItem py address raw = none ↔ (startsWith "geoip:" (bare raw) ||
      startsWith "ext:" (bare raw)) = true ∨ py.inNetwork (bare raw) address = none := by
  unfold ipItem
  split_ifs with h <;> simp [h]

/-- An entry left open is open without its negation. -/
theorem ipItem_bare_eq_none {address : α} {raw : String} (h : ipItem py address raw = none)
    (hbare : negated (bare raw) = false) : ipItem py address (bare raw) = none := by
  rw [ipItem_eq_none_iff] at h ⊢
  rwa [bare_of_not_negated hbare]

/-! ## Verdicts -/

/-- When a domain list is refuted. -/
theorem domainMatch_eq_false_iff {patterns : List String} {domain : String} :
    domainMatch py patterns domain = some false ↔
      patterns ≠ [] ∧ (domain = "" ∨ ∀ p ∈ patterns, domainEntry py domain p = some false) := by
  unfold domainMatch
  split_ifs with hnil hdomain
  · simp [hnil]
  · simp [hnil, hdomain]
  · simp [hnil, hdomain, firstHit_eq_false_iff]

/-- When a domain list is confirmed. -/
theorem domainMatch_eq_true_iff {patterns : List String} {domain : String} :
    domainMatch py patterns domain = some true ↔
      patterns = [] ∨ (domain ≠ "" ∧ ∃ p ∈ patterns, domainEntry py domain p = some true) := by
  unfold domainMatch
  split_ifs with hnil hdomain
  · simp [hnil]
  · simp [hnil, hdomain]
  · simp [hnil, hdomain, firstHit_eq_true_iff]

/-- When a list of texts is refuted. -/
theorem stringListMatch_eq_false_iff {values : List String} {current : String}
    {regexAllowed process : Bool} :
    stringListMatch py values current regexAllowed process = some false ↔ values ≠ [] ∧
      (current = "" ∨
        ∀ token ∈ values, stringEntry py regexAllowed process current token = some false) := by
  unfold stringListMatch
  split_ifs with hnil hcurrent
  · simp [hnil]
  · simp [hnil, hcurrent]
  · simp [hnil, hcurrent, firstHit_eq_false_iff]

/-- When a list of texts is confirmed. -/
theorem stringListMatch_eq_true_iff {values : List String} {current : String}
    {regexAllowed process : Bool} :
    stringListMatch py values current regexAllowed process = some true ↔ values = [] ∨
      (current ≠ "" ∧
        ∃ token ∈ values, stringEntry py regexAllowed process current token = some true) := by
  unfold stringListMatch
  split_ifs with hnil hcurrent
  · simp [hnil]
  · simp [hnil, hcurrent]
  · simp [hnil, hcurrent, firstHit_eq_true_iff]

/-- When attributes are refuted. -/
theorem attrsMatch_eq_false_iff {attrs given : List (String × String)} :
    attrsMatch py attrs given = some false ↔
      given = [] ∨ ∃ attr ∈ attrs, attrEntry py given attr = some false := by
  unfold attrsMatch
  split_ifs with hnil
  · simp [hnil]
  · simp [hnil, firstMiss_eq_false_iff]

/-- When attributes are confirmed. -/
theorem attrsMatch_eq_true_iff {attrs given : List (String × String)} :
    attrsMatch py attrs given = some true ↔
      given ≠ [] ∧ ∀ attr ∈ attrs, attrEntry py given attr = some true := by
  unfold attrsMatch
  split_ifs with hnil
  · simp [hnil]
  · simp [hnil, firstMiss_eq_true_iff]

/-- An address list is accepted if a readable positive entry holds, or it has readable negated
entries and all of these hold. -/
theorem ipMatch_eq_true_iff {patterns : List String} {rawIp : String} {dnsIndeterminate : Bool} :
    ipMatch py patterns rawIp dnsIndeterminate = some true ↔ patterns = [] ∨
      ∃ address, addressOf py rawIp = some address ∧
        ((∃ p ∈ patterns, negated p = false ∧ ipItem py address p = some true) ∨
        ((∃ p ∈ patterns, negated p = true ∧ ipItem py address p ≠ none) ∧
          ∀ p ∈ patterns, negated p = true → ipItem py address p ≠ some false)) := by
  by_cases hnil : patterns = []
  · simp [ipMatch, hnil]
  by_cases hraw : rawIp = ""
  · cases dnsIndeterminate <;> simp [ipMatch, addressOf, hnil, hraw]
  cases haddress : py.address rawIp with
  | none => simp [ipMatch, addressOf, hnil, hraw, haddress]
  | some address =>
      have hpositive : (((patterns.filter (!negated ·)).filterMap (ipItem py address)).any id =
          true) ↔ ∃ p ∈ patterns, negated p = false ∧ ipItem py address p = some true := by
        rw [any_filterMap_iff]
        simp [and_assoc]
      have hinverse : ((!((patterns.filter negated).filterMap (ipItem py address)).isEmpty &&
          ((patterns.filter negated).filterMap (ipItem py address)).all id) = true) ↔
          (∃ p ∈ patterns, negated p = true ∧ ipItem py address p ≠ none) ∧
          ∀ p ∈ patterns, negated p = true → ipItem py address p ≠ some false := by
        rw [Bool.and_eq_true, Bool.not_eq_true', isEmpty_filterMap_iff, all_filterMap_iff]
        simp [and_assoc]
      simp only [ipMatch, addressOf, hnil, hraw, if_false, haddress, false_or,
        Option.some.injEq, exists_eq_left']
      rw [← hpositive, ← hinverse]
      split_ifs with h h' h''
      · exact iff_of_true rfl (.inl h)
      · exact iff_of_true rfl (.inr h')
      · exact iff_of_false (by simp) (not_or.mpr ⟨h, h'⟩)
      · exact iff_of_false (by simp) (not_or.mpr ⟨h, h'⟩)

/-- When an address list holds under a fixing. -/
theorem ipListHolds_iff {field : String} {address : α} {patterns : List String} :
    ipListHolds py σ field address patterns = true ↔
      (∃ p ∈ patterns, negated p = false ∧ ipEntryHolds py σ field address p = true) ∨
      ((∃ p ∈ patterns, negated p = true) ∧
        ∀ p ∈ patterns, negated p = true → ipEntryHolds py σ field address p = true) := by
  simp [ipListHolds, List.any_filter, List.all_filter, imp_iff_not_or]

/-- An entry that is read holds as it reads. -/
theorem ipEntryHolds_of_read {field : String} {address : α} {raw : String} {b : Bool}
    (h : ipItem py address raw = some b) : ipEntryHolds py σ field address raw = b := by
  simp [ipEntryHolds, h]

/-- An entry left open holds as the fixing says. -/
theorem ipEntryHolds_of_open {field : String} {address : α} {raw : String}
    (h : ipItem py address raw = none) :
    ipEntryHolds py σ field address raw = (σ field (bare raw) != negated raw) := by
  simp [ipEntryHolds, h]

/-! ## What a condition can be -/

namespace Condition

/-- The fixing takes exactly the positive entries of a list for true. -/
def Favours (σ : Fixing) : Condition → Prop
  | .domains patterns _ => ∀ t, σ "domain" t = (decide (t ∈ patterns) && !negated t)
  | .addresses field patterns _ _ => ∀ t, σ field t = (decide (t ∈ patterns) && !negated t)
  | .listed field _ _ _ _ => ∀ t, σ field t = true
  | .attributes _ _ => ∀ key t, σ ("attrs:" ++ key) t = true
  | _ => True

/-- A condition that is not possible holds under no fixing. -/
theorem holds_of_not_possible {c : Condition} (h : ¬ c.Possible py) : c.holds py σ = false := by
  cases c with
  | domains patterns domain =>
      simp only [Possible, not_or, not_not, domainMatch_eq_false_iff] at h
      obtain ⟨⟨hnil, hentries⟩, hgeo⟩ := h
      by_cases hdomain : domain = ""
      · simp [holds, hnil, hdomain]
      · simp only [hdomain, false_or] at hentries
        simp only [holds, hnil, hdomain, decide_false, Bool.false_or, ne_eq, not_false_eq_true,
          decide_true, Bool.true_and, List.any_eq_false]
        intro p hp
        have hplain : geodata (bare p) ≠ true := fun hgeodata => hgeo ⟨hdomain, p, hp, hgeodata⟩
        simp [domainEntryHolds, hplain, hentries p hp]
  | addresses field patterns rawIp dnsIndeterminate =>
      simp only [Possible, not_or] at h
      obtain ⟨haccept, h⟩ := h
      simp only [ipMatch_eq_true_iff, not_or] at haccept
      simp only [holds, haccept.1, decide_false, Bool.false_or]
      cases haddress : addressOf py rawIp with
      | none => rfl
      | some address =>
          rw [Option.elim_some, Bool.eq_false_iff, ne_eq, ipListHolds_iff]
          have hfails {p : String} (hp : p ∈ patterns) (hpos : negated p = false) :
              ipItem py address p = some false := by
            cases hread : ipItem py address p with
            | none => exact absurd ⟨address, haddress, .inl ⟨p, hp, hpos, hread⟩⟩ h
            | some b =>
                cases b with
                | false => rfl
                | true =>
                    exact absurd ⟨address, haddress, .inl ⟨p, hp, hpos, hread⟩⟩ haccept.2
          rintro (⟨p, hp, hpos, hholds⟩ | ⟨hsome, hall⟩)
          · rw [ipEntryHolds_of_read (hfails hp hpos)] at hholds
            cases hholds
          · refine h ⟨address, haddress, .inr ⟨hsome, fun p hp hneg hfalse => ?_⟩⟩
            have hholds := hall p hp hneg
            rw [ipEntryHolds_of_read hfalse] at hholds
            cases hholds
  | port expr value => simpa [Possible, verdict, holds] using h
  | networks allowed network => simpa [Possible, verdict, holds] using h
  | listed field values current regexAllowed process =>
      simp only [Possible, verdict, not_not, stringListMatch_eq_false_iff] at h
      obtain ⟨hnil, hcurrent | hentries⟩ := h
      · simp [holds, hnil, hcurrent]
      · simp only [holds, hnil, decide_false, Bool.false_or]
        rw [any_getD_eq_false hentries, Bool.and_false]
  | attributes patterns given =>
      simp only [Possible, verdict, not_not, attrsMatch_eq_false_iff] at h
      rcases h with hnil | ⟨attr, hattr, hread⟩
      · simp [holds, hnil]
      · simp only [holds]
        rw [all_getD_eq_false hattr hread, Bool.and_false]

/-- A negated geodata entry of a domain list. -/
theorem domainEntryHolds_of_geodata {domain p : String} (h : geodata (bare p) = true) :
    domainEntryHolds py σ domain p = (σ "domain" (bare p) != negated p) := by
  simp [domainEntryHolds, h]

/-- An entry without geodata holds as it reads, or as the fixing says. -/
theorem domainEntryHolds_of_plain {domain p : String} (h : geodata (bare p) = false) :
    domainEntryHolds py σ domain p = (domainEntry py domain p).getD (σ "domain" p) := by
  simp [domainEntryHolds, h]

/-- A domain list with an entry that names geodata can hold. -/
theorem any_domainEntryHolds_of_geodata {patterns : List String} {domain p : String}
    (hσ : ∀ t, σ "domain" t = (decide (t ∈ patterns) && !negated t)) (hp : p ∈ patterns)
    (hgeo : geodata (bare p) = true) :
    patterns.any (domainEntryHolds py σ domain) = true := by
  rw [List.any_eq_true]
  have hpos := negated_of_geodata hgeo
  have hbare : bare (bare p) = bare p := bare_of_not_negated hpos
  by_cases hmem : bare p ∈ patterns
  · refine ⟨bare p, hmem, ?_⟩
    rw [domainEntryHolds_of_geodata (by rw [hbare]; exact hgeo), hbare, hσ]
    simp [hmem, hpos]
  · have hneg : negated p = true := by
      by_contra hneg
      rw [bare_of_not_negated (Bool.eq_false_iff.mpr hneg)] at hmem
      exact hmem hp
    refine ⟨p, hp, ?_⟩
    rw [domainEntryHolds_of_geodata hgeo, hσ]
    simp [hmem, hneg]

/-- A domain list with an entry that is not refuted can hold. -/
theorem any_domainEntryHolds_of_open {patterns : List String} {domain p : String}
    (hσ : ∀ t, σ "domain" t = (decide (t ∈ patterns) && !negated t)) (hp : p ∈ patterns)
    (hread : domainEntry py domain p ≠ some false) :
    patterns.any (domainEntryHolds py σ domain) = true := by
  cases hgeo : geodata (bare p) with
  | true => exact any_domainEntryHolds_of_geodata hσ hp hgeo
  | false =>
      rw [List.any_eq_true]
      refine ⟨p, hp, ?_⟩
      rw [domainEntryHolds_of_plain hgeo]
      cases hentry : domainEntry py domain p with
      | none =>
          rw [Option.getD_none, hσ]
          simp [hp, domainEntry_eq_none hentry]
      | some b =>
          cases b with
          | true => rfl
          | false => exact absurd hentry hread

section Favoured

variable {field : String} {patterns : List String} {address : α}

/-- A positive entry of an address list that is left open can hold. -/
theorem ipEntryHolds_of_favoured {p : String}
    (hσ : ∀ t, σ field t = (decide (t ∈ patterns) && !negated t)) (hp : p ∈ patterns)
    (hpos : negated p = false) (hread : ipItem py address p = none) :
    ipEntryHolds py σ field address p = true := by
  rw [ipEntryHolds_of_open hread, bare_of_not_negated hpos, hσ]
  simp [hp, hpos]

/-- An address list with negated entries none of which is refuted can hold. -/
theorem ipListHolds_of_inverse (hσ : ∀ t, σ field t = (decide (t ∈ patterns) && !negated t))
    (hsome : ∃ p ∈ patterns, negated p = true)
    (hall : ∀ p ∈ patterns, negated p = true → ipItem py address p ≠ some false) :
    ipListHolds py σ field address patterns = true := by
  rw [ipListHolds_iff]
  -- either an entry stands beside its own negation and holds, or all the negated ones do
  by_cases hcover : ∃ p ∈ patterns, negated p = true ∧ ipItem py address p = none ∧
      bare p ∈ patterns ∧ negated (bare p) = false
  · obtain ⟨p, hp, hneg, hread, hmem, hpos⟩ := hcover
    exact .inl ⟨bare p, hmem, hpos,
      ipEntryHolds_of_favoured hσ hmem hpos (ipItem_bare_eq_none hread hpos)⟩
  · refine .inr ⟨hsome, fun p hp hneg => ?_⟩
    cases hread : ipItem py address p with
    | none =>
        have hfalse : σ field (bare p) = false := by
          rw [hσ, Bool.eq_false_iff]
          intro htrue
          simp only [Bool.and_eq_true, decide_eq_true_eq, Bool.not_eq_true'] at htrue
          exact hcover ⟨p, hp, hneg, hread, htrue⟩
        rw [ipEntryHolds_of_open hread, hfalse, hneg]
        rfl
    | some b =>
        rw [ipEntryHolds_of_read hread]
        cases b with
        | true => rfl
        | false => exact absurd hread (hall p hp hneg)

end Favoured

/-- A possible condition holds under a fixing that favours it. -/
theorem holds_of_possible {c : Condition} (hσ : c.Favours σ) (h : c.Possible py) :
    c.holds py σ = true := by
  cases c with
  | domains patterns domain =>
      by_cases hnil : patterns = []
      · simp [holds, hnil]
      simp only [Possible, ne_eq, domainMatch_eq_false_iff, hnil, not_false_eq_true, true_and,
        not_or, not_forall] at h
      have hdomain : domain ≠ "" := by
        rcases h with h | h
        · exact h.1
        · exact h.1
      have hany : patterns.any (domainEntryHolds py σ domain) = true := by
        rcases h with ⟨-, p, hp, hread⟩ | ⟨-, p, hp, hgeo⟩
        · exact any_domainEntryHolds_of_open hσ hp hread
        · exact any_domainEntryHolds_of_geodata hσ hp hgeo
      simp [holds, hdomain, hany]
  | addresses field patterns rawIp dnsIndeterminate =>
      simp only [Possible, ipMatch_eq_true_iff] at h
      rcases h with (hnil | ⟨address, haddress, h⟩) | ⟨address, haddress, h⟩
      · simp [holds, hnil]
      · have hlist : ipListHolds py σ field address patterns = true := by
          rcases h with ⟨p, hp, hpos, hread⟩ | ⟨⟨p, hp, hneg, -⟩, hall⟩
          · exact ipListHolds_iff.mpr (.inl ⟨p, hp, hpos, ipEntryHolds_of_read hread⟩)
          · exact ipListHolds_of_inverse hσ ⟨p, hp, hneg⟩ hall
        simp [holds, haddress, hlist]
      · have hlist : ipListHolds py σ field address patterns = true := by
          rcases h with ⟨p, hp, hpos, hread⟩ | ⟨hsome, hall⟩
          · exact ipListHolds_iff.mpr
              (.inl ⟨p, hp, hpos, ipEntryHolds_of_favoured hσ hp hpos hread⟩)
          · exact ipListHolds_of_inverse hσ hsome hall
        simp [holds, haddress, hlist]
  | port expr value => simpa [Possible, verdict, holds] using h
  | networks allowed network => simpa [Possible, verdict, holds] using h
  | listed field values current regexAllowed process =>
      by_cases hnil : values = []
      · simp [holds, hnil]
      simp only [Possible, verdict, ne_eq, stringListMatch_eq_false_iff, hnil, not_false_eq_true,
        true_and, not_or, not_forall] at h
      obtain ⟨hcurrent, token, htoken, hread⟩ := h
      simp only [holds]
      rw [any_getD_eq_true htoken hread fun _ => hσ token]
      simp [hcurrent]
  | attributes patterns given =>
      simp only [Possible, verdict, ne_eq, attrsMatch_eq_false_iff, not_or, not_exists,
        not_and] at h
      simp only [holds]
      rw [all_getD_eq_true h.2 fun attr _ _ => hσ attr.1 attr.2]
      simp [h.1]

/-- The fixing takes exactly the positive entries of a list for false. -/
def Opposes (σ : Fixing) : Condition → Prop
  | .domains patterns _ => ∀ t, σ "domain" t = !(decide (t ∈ patterns) && !negated t)
  | .addresses field patterns _ _ => ∀ t, σ field t = !(decide (t ∈ patterns) && !negated t)
  | _ => True

/-- An accepted address list that is firm holds under every fixing. -/
theorem ipListHolds_of_firm {field : String} {patterns : List String} {address : α}
    (hread : (∃ p ∈ patterns, negated p = false ∧ ipItem py address p = some true) ∨
      (∃ p ∈ patterns, negated p = true) ∧
        ∀ p ∈ patterns, negated p = true → ipItem py address p ≠ some false)
    (hfirm : (∃ q ∈ patterns, negated q = false ∧ ipItem py address q = some true) ∨
      ∀ q ∈ patterns, negated q = true → ipItem py address q = none →
        bare q ∈ patterns ∧ negated (bare q) = false) :
    ipListHolds py σ field address patterns = true := by
  rw [ipListHolds_iff]
  rcases hread with ⟨p, hp, hpos, hread⟩ | ⟨hneg, hall⟩
  · exact .inl ⟨p, hp, hpos, ipEntryHolds_of_read hread⟩
  rcases hfirm with ⟨q, hq, hpos, hhit⟩ | hcover
  · exact .inl ⟨q, hq, hpos, ipEntryHolds_of_read hhit⟩
  -- either a positive entry left open holds, or no negated one is refuted
  by_cases hsome : ∃ q ∈ patterns, negated q = false ∧ ipEntryHolds py σ field address q = true
  · exact .inl hsome
  refine .inr ⟨hneg, fun q hq hqneg => ?_⟩
  cases hopen : ipItem py address q with
  | some b =>
      cases b with
      | true => exact ipEntryHolds_of_read hopen
      | false => exact absurd hopen (hall q hq hqneg)
  | none =>
      obtain ⟨hmem, hpos⟩ := hcover q hq hqneg hopen
      have hbare : ipEntryHolds py σ field address (bare q) = σ field (bare q) := by
        rw [ipEntryHolds_of_open (ipItem_bare_eq_none hopen hpos), bare_of_not_negated hpos,
          hpos, Bool.bne_false]
      have hfalse : σ field (bare q) = false := by
        rw [← hbare, Bool.eq_false_iff]
        exact fun htrue => hsome ⟨bare q, hmem, hpos, htrue⟩
      rw [ipEntryHolds_of_open hopen, hfalse, hqneg]
      rfl

/-- An accepted condition that is firm holds under every fixing. -/
theorem holds_of_firm {c : Condition} (haccept : c.verdict py = some true) (h : c.Firm py) :
    c.holds py σ = true := by
  cases c with
  | domains patterns domain =>
      simp only [verdict, domainMatch_eq_true_iff] at haccept
      rcases haccept with hnil | ⟨hdomain, -⟩
      · simp [holds, hnil]
      have hany (hsome : ∃ p ∈ patterns, domainEntryHolds py σ domain p = true) :
          (domains patterns domain).holds py σ = true := by
        simp [holds, hdomain, hsome]
      rcases h with hnil | ⟨p, hp, hplain, hread⟩ | ⟨p, hp, hgeo, hneg, hmem⟩
      · simp [holds, hnil]
      · exact hany ⟨p, hp, by rw [domainEntryHolds_of_plain hplain, hread]; rfl⟩
      · have hpos := negated_of_geodata hgeo
        have hbare : bare (bare p) = bare p := bare_of_not_negated hpos
        cases hvalue : σ "domain" (bare p) with
        | true =>
            refine hany ⟨bare p, hmem, ?_⟩
            rw [domainEntryHolds_of_geodata (by rw [hbare]; exact hgeo), hbare, hvalue, hpos]
            rfl
        | false =>
            refine hany ⟨p, hp, ?_⟩
            rw [domainEntryHolds_of_geodata hgeo, hvalue, hneg]
            rfl
  | addresses field patterns rawIp dnsIndeterminate =>
      simp only [verdict, ipMatch_eq_true_iff] at haccept
      rcases haccept with hnil | ⟨address, haddress, hread⟩
      · simp [holds, hnil]
      have hlist : ipListHolds py σ field address patterns = true :=
        ipListHolds_of_firm (hread.imp_right fun h => ⟨h.1.imp fun _ hp => ⟨hp.1, hp.2.1⟩, h.2⟩)
          (h address haddress)
      simp [holds, haddress, hlist]
  | port expr value => simpa [verdict, holds] using haccept
  | networks allowed network => simpa [verdict, holds] using haccept
  | listed field values current regexAllowed process =>
      simp only [verdict, stringListMatch_eq_true_iff] at haccept
      rcases haccept with hnil | ⟨hcurrent, token, htoken, hread⟩
      · simp [holds, hnil]
      · simp only [holds]
        rw [any_getD_eq_true htoken (by simp [hread]) (by simp [hread])]
        simp [hcurrent]
  | attributes patterns given =>
      simp only [verdict, attrsMatch_eq_true_iff] at haccept
      simp only [holds]
      rw [all_getD_eq_true (fun attr hattr => by simp [haccept.2 attr hattr])
        fun attr hattr hnone => by simp [haccept.2 attr hattr] at hnone]
      simp [haccept.1]

/-- An accepted condition that is not firm fails under a fixing that opposes it. -/
theorem holds_of_not_firm {c : Condition} (hσ : c.Opposes σ) (h : ¬ c.Firm py) :
    c.holds py σ = false := by
  cases c with
  | domains patterns domain =>
      simp only [Firm, not_or, not_exists, not_and] at h
      obtain ⟨hnil, hplain, hgeodata⟩ := h
      have hany : patterns.any (domainEntryHolds py σ domain) = false := by
        rw [List.any_eq_false]
        intro p hp
        rw [Bool.not_eq_true]
        cases hgeo : geodata (bare p) with
        | true =>
            rw [domainEntryHolds_of_geodata hgeo, hσ]
            cases hneg : negated p with
            | true => simp [hgeodata p hp hgeo hneg]
            | false =>
                rw [bare_of_not_negated hneg]
                simp [hp, hneg]
        | false =>
            rw [domainEntryHolds_of_plain hgeo]
            cases hread : domainEntry py domain p with
            | none =>
                rw [Option.getD_none, hσ]
                simp [hp, domainEntry_eq_none hread]
            | some b =>
                cases b with
                | true => exact absurd hread (hplain p hp hgeo)
                | false => rfl
      simp [holds, hnil, hany]
  | addresses field patterns rawIp dnsIndeterminate =>
      simp only [Firm, not_forall, not_or, not_exists, not_and, exists_prop] at h
      obtain ⟨address, haddress, hhit, p, hp, hneg, hopen, hcover⟩ := h
      have hlist : ipListHolds py σ field address patterns = false := by
        rw [Bool.eq_false_iff, ne_eq, ipListHolds_iff]
        rintro (⟨q, hq, hpos, hholds⟩ | ⟨-, hall⟩)
        · cases hread : ipItem py address q with
          | none =>
              rw [ipEntryHolds_of_open hread, bare_of_not_negated hpos, hσ] at hholds
              simp [hq, hpos] at hholds
          | some b =>
              rw [ipEntryHolds_of_read hread] at hholds
              exact hhit q hq hpos (hholds ▸ hread)
        · have hholds := hall p hp hneg
          rw [ipEntryHolds_of_open hopen, hσ, hneg] at hholds
          simp only [Bool.bne_true, Bool.not_not, Bool.and_eq_true, decide_eq_true_eq,
            Bool.not_eq_true'] at hholds
          exact hcover hholds.1 hholds.2
      simp [holds, haddress, hlist, List.ne_nil_of_mem hp]
  | port expr value => exact absurd trivial h
  | networks allowed network => exact absurd trivial h
  | listed field values current regexAllowed process => exact absurd trivial h
  | attributes patterns given => exact absurd trivial h

end Condition

/-! ## What a rule can be -/

/-- The fixing that takes what a rule lists without negation for true. -/
def favourable (rule : Doc) : Fixing :=
  fun field token => field ∉ ["domain", "ip", "sourceIP", "localIP"] ||
    (decide (token ∈ patternsAt rule field) && !negated token)

/-- The fixing that takes what a rule lists without negation for false. -/
def adverse (rule : Doc) : Fixing :=
  fun field token => !favourable rule field token

variable {rule : Doc} {body domainStrategy}

/-- What the fixings of a rule say about its conditions. -/
theorem favours_and_opposes {c : Condition} (hc : c ∈ ruleConditions rule body domainStrategy) :
    c.Favours (favourable rule) ∧ c.Opposes (adverse rule) := by
  simp only [ruleConditions, List.mem_append, List.mem_ite_nil_left, List.mem_ite_nil_right,
    List.mem_singleton] at hc
  have hattrs (key t : String) : favourable rule ("attrs:" ++ key) t = true := by
    have hne (name : String) (hname : name ∈ ["domain", "ip", "sourceIP", "localIP"]) :
        "attrs:" ++ key ≠ name := by
      intro h
      have hhead := congrArg (fun s : String => s.toList.head?) h
      simp only [String.toList_append] at hhead
      simp only [List.mem_cons, List.not_mem_nil, or_false] at hname
      rcases hname with rfl | rfl | rfl | rfl <;> simp at hhead
    simp only [favourable, Bool.or_eq_true, decide_eq_true_eq]
    exact .inl fun hmem => hne _ hmem rfl
  rcases hc with ((((((((((((⟨-, rfl⟩ | ⟨-, rfl⟩) | ⟨-, rfl⟩) | ⟨-, rfl⟩) | ⟨-, rfl⟩) | ⟨-, rfl⟩) |
    ⟨-, rfl⟩) | ⟨-, rfl⟩) | ⟨-, rfl⟩) | ⟨-, rfl⟩) | ⟨-, rfl⟩) | ⟨-, rfl⟩) | ⟨-, rfl⟩) | ⟨-, rfl⟩
  all_goals first
    | exact ⟨hattrs, trivial⟩
    | simp [Condition.Favours, Condition.Opposes, favourable, adverse]

/-- A rule holds under no fixing exactly if one of its conditions is not possible. -/
theorem never_iff : (∀ σ, holdsUnder py σ body domainStrategy rule = false) ↔
    ¬ RulePossible py body domainStrategy rule := by
  constructor
  · intro h hpossible
    have hholds : holdsUnder py (favourable rule) body domainStrategy rule = true := by
      rw [holdsUnder, List.all_eq_true]
      exact fun c hc => Condition.holds_of_possible (favours_and_opposes hc).1 (hpossible c hc)
    rw [h] at hholds
    cases hholds
  · intro h σ
    simp only [RulePossible, not_forall, exists_prop] at h
    obtain ⟨c, hc, hnot⟩ := h
    rw [holdsUnder, List.all_eq_false]
    exact ⟨c, hc, by rw [Condition.holds_of_not_possible hnot]; decide⟩

/-- An accepted rule holds under every fixing exactly if each of its conditions is firm. -/
theorem always_iff (haccept : ruleEval py body domainStrategy rule = some true) :
    (∀ σ, holdsUnder py σ body domainStrategy rule = true) ↔
      RuleFirm py body domainStrategy rule := by
  rw [ruleEval, allOf_eq_true_iff, List.forall_mem_map] at haccept
  constructor
  · intro h c hc
    by_contra hnot
    have hholds := List.all_eq_true.mp (h (adverse rule)) c hc
    rw [Condition.holds_of_not_firm (favours_and_opposes hc).2 hnot] at hholds
    cases hholds
  · intro h σ
    rw [holdsUnder, List.all_eq_true]
    exact fun c hc => Condition.holds_of_firm (haccept c hc) (h c hc)

/-- An address list that is refuted is not possible. -/
theorem not_possible_of_ipMatch {field : String} {patterns : List String} {rawIp : String}
    {dnsIndeterminate : Bool} (h : ipMatch py patterns rawIp dnsIndeterminate = some false) :
    ¬ (Condition.addresses field patterns rawIp dnsIndeterminate).Possible py := by
  have haccept : ipMatch py patterns rawIp dnsIndeterminate ≠ some true := by simp [h]
  have hread {address : α} (haddress : addressOf py rawIp = some address) {p : String}
      (hp : p ∈ patterns) : ipItem py address p ≠ none := by
    intro hopen
    have hany : patterns.any (fun raw => decide (ipItem py address raw = none)) = true :=
      List.any_eq_true.mpr ⟨p, hp, by simpa using hopen⟩
    unfold addressOf at haddress
    split_ifs at haddress with hraw
    unfold ipMatch at h
    rw [if_neg (List.ne_nil_of_mem hp), if_neg hraw, haddress] at h
    dsimp only at h
    rw [if_pos hany] at h
    split_ifs at h <;> cases h
  rintro (htrue | ⟨address, haddress, h'⟩)
  · exact haccept htrue
  rcases h' with ⟨p, hp, -, hopen⟩ | ⟨⟨p, hp, hneg⟩, hall⟩
  · exact hread haddress hp hopen
  · exact haccept (ipMatch_eq_true_iff.mpr
      (.inr ⟨address, haddress, .inr ⟨⟨p, hp, hneg, hread haddress hp⟩, hall⟩⟩))

/-- A refuted rule is possible only if its domain list names geodata in another way than with
{lit}`geosite:` or {lit}`ext:`. -/
theorem not_possible_of_refuted (h : ruleEval py body domainStrategy rule = some false)
    (hplain : ∀ p ∈ patternsAt rule "domain", geodata (bare p) = false ∨
      startsWith "geosite:" p = true ∨ startsWith "ext:" p = true) :
    ¬ RulePossible py body domainStrategy rule := by
  rw [ruleEval, allOf_eq_false_iff, List.mem_map] at h
  obtain ⟨c, hc, hverdict⟩ := h
  refine fun hpossible => absurd (hpossible c hc) ?_
  cases c with
  | domains patterns domain =>
      have hpatterns : patterns = patternsAt rule "domain" := by
        simp only [ruleConditions, List.mem_append, List.mem_ite_nil_left, List.mem_ite_nil_right,
          List.mem_singleton, Condition.domains.injEq, reduceCtorEq, and_false, or_false] at hc
        exact hc.2.1
      have hfalse := hverdict
      simp only [Condition.verdict, domainMatch_eq_false_iff] at hfalse
      rintro (hpossible | ⟨hdomain, p, hp, hgeo⟩)
      · exact hpossible hverdict
      · have hread := (hfalse.2.resolve_left hdomain) p hp
        rcases hplain p (hpatterns ▸ hp) with hno | hsite | hext
        · exact absurd hgeo (by simp [hno])
        · simp [domainEntry, hsite] at hread
        · simp [domainEntry, hext] at hread
  | addresses field patterns rawIp dnsIndeterminate => exact not_possible_of_ipMatch hverdict
  | port expr value => exact fun hpossible => hpossible hverdict
  | networks allowed network => exact fun hpossible => hpossible hverdict
  | listed field values current regexAllowed process => exact fun hpossible => hpossible hverdict
  | attributes patterns given => exact fun hpossible => hpossible hverdict

/-! ## The answer of a preview -/

/-- The loop answers what the search for the first rule that holds finds. -/
theorem finding_previewFrom {outbounds balancers : List Doc} {index : ℕ} {trace : List TraceLine}
    {rules : List Doc} :
    (previewFrom py outbounds balancers body domainStrategy index trace rules).finding =
      (scan (ruleEval py body domainStrategy) rules).shift index := by
  induction rules generalizing index trace with
  | nil => rfl
  | cons rule rules ih =>
      unfold previewFrom scan
      cases hverdict : ruleEval py body domainStrategy rule with
      | none => simp [indeterminateAnswer, PreviewAnswer.finding, Finding.shift]
      | some b =>
          cases b with
          | false => simp [ih, Nat.add_comm]
          | true =>
              cases hout : rule.truthyAt "outboundTag" with
              | true => simp [outboundAnswer, PreviewAnswer.finding, Finding.shift]
              | false => simp [balancerAnswer, PreviewAnswer.finding, Finding.shift]

/-- The rules of a request that a preview reaches. -/
def Examined (py : Matcher α) (routing : Doc) (body : RoutePreview) (rule : Doc) : Prop :=
  Reached (ruleEval py body (textOr routing "domainStrategy" "AsIs")) (routing.itemsAt "rules") rule

/-- The answer of a preview claims no more than is known exactly if each rule that it reaches is
refuted only if it is not possible, and accepted only if it is firm. -/
theorem preview_truthful_iff {outbounds : List Doc} {routing : Doc} {answer : PreviewAnswer}
    (h : trafficPreview py outbounds routing body = .ok answer) :
    Truthful (fun σ : Fixing => holdsUnder py σ body (textOr routing "domainStrategy" "AsIs"))
        (routing.itemsAt "rules") answer.finding ↔
      ∀ rule, Examined py routing body rule →
        (ruleEval py body (textOr routing "domainStrategy" "AsIs") rule = some false →
          ¬ RulePossible py body (textOr routing "domainStrategy" "AsIs") rule) ∧
        (ruleEval py body (textOr routing "domainStrategy" "AsIs") rule = some true →
          RuleFirm py body (textOr routing "domainStrategy" "AsIs") rule) := by
  have hanswer : answer.finding =
      scan (ruleEval py body (textOr routing "domainStrategy" "AsIs")) (routing.itemsAt "rules") := by
    simp only [trafficPreview, except_bind_ok_iff, except_pure_ok_iff] at h
    obtain ⟨-, -, -, -, -, -, rfl⟩ := h
    rw [finding_previewFrom, Finding.shift_zero]
  rw [hanswer, truthful_scan_iff]
  refine forall_congr' fun rule => imp_congr_right fun _ => and_congr ?_ ?_
  · rw [← never_iff]
  · exact imp_congr_right fun haccept => always_iff haccept

end Preview

/-- The number of a dotted IPv4 address. -/
def ipv4 (s : String) : Option ℕ :=
  if dottedQuad s then some (((splitAt '.' s).map fun part =>
    ((asciiInt part).getD 0).toNat).foldl (256 * · + ·) 0) else none

/-- Addresses and networks of IPv4, and expressions of letters and digits. -/
def Matcher.ascii : Matcher ℕ :=
  { Builtins.ascii with
    address := ipv4
    inNetwork := fun token address =>
      match splitAt '/' token with
      | [network] => (ipv4 network).map fun n => n = address
      | [network, length] =>
          (ipv4 network).bind fun n => ((asciiInt length).filter (· ≤ 32)).map fun bits =>
            n / 2 ^ (32 - bits.toNat) = address / 2 ^ (32 - bits.toNat)
      | _ => none
    search := fun pattern text =>
      if pattern.toList.all Char.isAlphanum then some (within pattern text) else none }

/-- One outbound for what is forwarded and one for what is not. -/
def forwardAndBlock : List Doc :=
  [.dict [("tag", .str "direct")], .dict [("tag", .str "block")]]

/-- A rule that blocks the addresses of a list. -/
def blockRule (addresses : List String) : Doc :=
  .dict [("type", .str "field"), ("ip", .list (addresses.map Doc.str)),
    ("outboundTag", .str "block")]

/-- A routing with one rule, which blocks the addresses of a list. -/
def blockAddresses (addresses : List String) : Doc :=
  .dict [("domainStrategy", .str "AsIs"), ("rules", .list [blockRule addresses])]

/-- A request for an address on the Internet. -/
def internetRequest : RoutePreview :=
  { RoutePreview.default with ip := "8.8.8.8", port := 443 }

/-- The answer that the first rule blocks the request. -/
def blockedAnswer : PreviewAnswer where
  result := .matched
  ruleIndex := 1
  targetType := "outbound"
  target := "block"
  selectedOutbound := "block"
  chain := ["block"]
  trace := [⟨1, "", some true, "block"⟩]

/-- A request whose address is in a listed network is known to be blocked. -/
theorem preview_truthful_network :
    trafficPreview Matcher.ascii forwardAndBlock
      (blockAddresses ["!geoip:us", "8.8.8.0/24"]) internetRequest = .ok blockedAnswer ∧
    Truthful (fun σ : Fixing => holdsUnder Matcher.ascii σ internetRequest "AsIs")
      ((blockAddresses ["!geoip:us", "8.8.8.0/24"]).itemsAt "rules") blockedAnswer.finding := by
  have hanswer : trafficPreview Matcher.ascii forwardAndBlock
      (blockAddresses ["!geoip:us", "8.8.8.0/24"]) internetRequest = .ok blockedAnswer := by
    decide +kernel
  refine ⟨hanswer, (preview_truthful_iff hanswer).mpr fun rule hrule => ?_⟩
  have hrules : (blockAddresses ["!geoip:us", "8.8.8.0/24"]).itemsAt "rules" =
      [blockRule ["!geoip:us", "8.8.8.0/24"]] := rfl
  rw [Examined, hrules, reached_cons_iff] at hrule
  rcases hrule with rfl | ⟨-, hrule⟩
  · have hconditions : ruleConditions (blockRule ["!geoip:us", "8.8.8.0/24"]) internetRequest
        (textOr (blockAddresses ["!geoip:us", "8.8.8.0/24"]) "domainStrategy" "AsIs") =
        [.addresses "ip" ["!geoip:us", "8.8.8.0/24"] "8.8.8.8" false] := rfl
    have haddress : addressOf Matcher.ascii "8.8.8.8" = some 134744072 := by decide +kernel
    refine ⟨fun hverdict => absurd hverdict (by decide +kernel), fun _ c hc => ?_⟩
    rw [hconditions, List.mem_singleton] at hc
    subst hc
    intro address h
    cases haddress.symm.trans h
    exact .inl ⟨"8.8.8.0/24", by decide, by decide, by decide +kernel⟩
  · exact absurd hrule not_reached_nil

/-- The preview of a saved routing says that a rule blocks the request since its address is not
in the private network, although it may be one of those that the rule excepts. -/
theorem preview_claims_too_much :
    checkRouting Builtins.ascii forwardAndBlock (blockAddresses ["!geoip:us", "!10.0.0.0/8"]) =
      .ok (blockAddresses ["!geoip:us", "!10.0.0.0/8"]) ∧
    trafficPreview Matcher.ascii forwardAndBlock
      (blockAddresses ["!geoip:us", "!10.0.0.0/8"]) internetRequest = .ok blockedAnswer ∧
    ¬ Truthful (fun σ : Fixing => holdsUnder Matcher.ascii σ internetRequest "AsIs")
      ((blockAddresses ["!geoip:us", "!10.0.0.0/8"]).itemsAt "rules") blockedAnswer.finding := by
  refine ⟨rfl, by decide +kernel, fun htruthful => ?_⟩
  exact absurd (htruthful fun _ _ => true) (by decide +kernel)

end Core
end DarkXray
