import DarkXray.Core.Listeners

/-!
# References between the sections

Rules, balancers, chained outbounds and hosts refer to each other and to the inbounds, and
each editor refuses an edit that would leave one of these references without its target.
One reference is nobody's: a rule keeps the old tag of an inbound that is renamed.

Main results:

- Theorem {lit}`Linked.edited`: every edit keeps the references of the sections.
- Theorem {lit}`rejected_for_chaining_iff`: a section is rejected for its chains exactly if
  one of them is cyclic or leaves the section.
- Theorem {lit}`NamesKept.edited`: rules go on naming the inbounds that they named when they
  were saved, as long as no edit takes a named tag away.
- Theorem {lit}`references_kept`: both, over all runs.
-/

namespace DarkXray
namespace Core

open Library

/-! ## Tags of outbounds -/

/-- The tag of an accepted outbound is stored under its field. -/
theorem outboundTag_ok {out : Doc} {tag : Atom} (h : outboundTag out = .ok tag) :
    (out.get? "tag").bind Doc.norm? = some tag := by
  simp only [outboundTag, except_bind_ok_iff, insist_ok_iff, except_pure_ok_iff] at h
  obtain ⟨tag', hread, _, _, rfl⟩ := h
  cases hget : out.get? "tag" with
  | none =>
      have hempty : tagRe (Atom.str "").text = false := by decide
      simp [Doc.getD, hget, Doc.str, hempty] at hread
  | some d =>
      cases d with
      | atom a =>
          simp only [Doc.getD, hget, Option.getD_some] at hread
          split at hread
          · exact hread
          · cases hread
      | list items => simp [Doc.getD, hget] at hread
      | dict fields => simp [Doc.getD, hget] at hread

/-- The checked tags are the stored ones. -/
theorem storedTags_of_ok {value : List Doc} {tags : List Atom}
    (h : value.mapM outboundTag = .ok tags) : storedTags value = tags := by
  have hall := except_mapM_ok_iff.mp h
  clear h
  induction hall with
  | nil => rfl
  | cons hout _ ih =>
      unfold storedTags at ih ⊢
      rw [List.filterMap_cons, outboundTag_ok hout]
      simp [ih]

/-! ## Chains -/

/-- The link of an outbound whose dialer proxy is a text. -/
def storedLink (out : Doc) : Option (Atom × Atom) :=
  ((out.get? "tag").bind Doc.norm?).bind fun tag =>
    ((dialerProxy out).bind Doc.str?).map fun via => (tag, .str via)

/-- The links of a stored section. -/
def storedLinks (outbounds : List Doc) : List (Atom × Atom) :=
  outbounds.filterMap storedLink

/-- The tag that an outbound is chained to. -/
def chainNext (outbounds : List Doc) (tag : Atom) : Option Atom :=
  (storedLinks outbounds).lookup tag

/-- Every dialer proxy names an outbound of the section. -/
def ChainsClosed (outbounds : List Doc) : Prop :=
  ∀ out ∈ outbounds, ∀ via, dialerProxy out = some via →
    ∃ s, via.str? = some s ∧ .str s ∈ storedTags outbounds

theorem chainLink_ok_iff {tags : List Atom} {tag : Atom} {out : Doc}
    {link : Option (Atom × Atom)} (htag : (out.get? "tag").bind Doc.norm? = some tag) :
    chainLink tags tag out = .ok link ↔ streamOk out = true ∧
      (∀ via, dialerProxy out = some via → ∃ s, via.str? = some s ∧ .str s ∈ tags) ∧
        link = storedLink out := by
  unfold chainLink storedLink
  simp only [except_bind_ok_iff, check_ok_iff, htag, Option.bind_some]
  cases hvia : dialerProxy out with
  | none =>
      simp only [except_pure_ok_iff, Option.bind_none, Option.map_none, reduceCtorEq,
        false_imp_iff, implies_true, true_and]
      constructor
      · rintro ⟨_, hstream, hlink⟩
        exact ⟨hstream, hlink⟩
      · exact fun h => ⟨(), h⟩
  | some via =>
      simp only [except_bind_ok_iff, insist_ok_iff, except_pure_ok_iff, Option.bind_some,
        Option.filter_eq_some_iff, decide_eq_true_eq, Option.some.injEq, forall_eq']
      constructor
      · rintro ⟨_, hstream, s, ⟨hs, hmem⟩, rfl⟩
        exact ⟨hstream, ⟨s, hs, hmem⟩, by simp [hs]⟩
      · rintro ⟨hstream, ⟨s, hs, hmem⟩, rfl⟩
        exact ⟨(), hstream, s, ⟨hs, hmem⟩, by simp [hs]⟩

/-- The links of a section whose dialer proxies name outbounds of the section. -/
theorem chainLinks_ok_iff {value : List Doc} {tags : List Atom} {links : List (Atom × Atom)}
    (htags : value.mapM outboundTag = .ok tags) :
    chainLinks tags value = .ok links ↔ (∀ out ∈ value, streamOk out = true) ∧
      ChainsClosed value ∧ links = storedLinks value := by
  have hstored := storedTags_of_ok htags
  unfold chainLinks ChainsClosed storedLinks
  rw [hstored]
  simp only [except_bind_ok_iff, except_pure_ok_iff]
  -- the tags to look in stay the same while the list of outbounds is taken apart
  have hmap : ∀ (all : List Atom) (tags : List Atom) (value : List Doc),
      List.Forall₂ (fun out tag => outboundTag out = .ok tag) value tags →
      ∀ ls, (tags.zip value).mapM (fun t => chainLink all t.1 t.2) = .ok ls ↔
        (∀ out ∈ value, streamOk out = true) ∧ (∀ out ∈ value, ∀ via,
          dialerProxy out = some via → ∃ s, via.str? = some s ∧ .str s ∈ all) ∧
            ls = value.map storedLink := by
    intro all tags value hforall
    induction hforall with
    | nil =>
        intro ls
        rw [List.zip_nil_left, List.mapM_nil, except_pure_ok_iff]
        simp
    | cons hout _ ih =>
        intro ls
        rw [List.zip_cons_cons, List.mapM_cons]
        simp only [except_bind_ok_iff, except_pure_ok_iff, ih,
          chainLink_ok_iff (outboundTag_ok hout), List.forall_mem_cons, List.map_cons]
        constructor
        · rintro ⟨_, ⟨hs, hv, rfl⟩, _, ⟨hs', hv', rfl⟩, rfl⟩
          exact ⟨⟨hs, hs'⟩, ⟨hv, hv'⟩, rfl⟩
        · rintro ⟨⟨hs, hs'⟩, ⟨hv, hv'⟩, rfl⟩
          exact ⟨_, ⟨hs, hv, rfl⟩, _, ⟨hs', hv', rfl⟩, rfl⟩
  have hvalue := hmap tags tags value (except_mapM_ok_iff.mp htags)
  have hid : (value.map storedLink).filterMap id = value.filterMap storedLink := by
    rw [List.filterMap_map]
    rfl
  constructor
  · rintro ⟨ls, hls, rfl⟩
    obtain ⟨hstream, hclosed, rfl⟩ := (hvalue ls).mp hls
    exact ⟨hstream, hclosed, hid⟩
  · rintro ⟨hstream, hclosed, rfl⟩
    exact ⟨_, (hvalue _).mpr ⟨hstream, hclosed, rfl⟩, hid.symm⟩

/-- The walks find a cycle exactly if there is one. -/
theorem chainCycle_iff (outbounds : List Doc) :
    chainCycle (storedLinks outbounds) = false ↔ Acyclic (chainNext outbounds) := by
  have hkeys : ∀ tag, (chainNext outbounds tag).isSome →
      tag ∈ (storedLinks outbounds).map Prod.fst := by
    intro tag hsome
    obtain ⟨target, htarget⟩ := Option.isSome_iff_exists.mp hsome
    obtain ⟨before, after, hsplit, _⟩ := List.lookup_eq_some_iff.mp htarget
    rw [hsplit]
    simp
  rw [acyclic_iff_walk hkeys]
  simp only [chainCycle, List.any_eq_false, decide_eq_true_eq, List.length_map]
  rfl

/-- The section comes as far as the checks of the chains. -/
structure ReachesChains (py : Builtins) (cfg : Config) (value : List Doc) : Prop where
  writes : cfg.writesEnabled = true
  size : (py.dumps (.list value)).length ≤ 500000
  nonempty : value ≠ []
  tags : ∃ tags, value.mapM outboundTag = .ok tags ∧ tags.Nodup ∧
    ∀ t ∈ tags.zip value, outboundSettings py t.1 t.2 = .ok ()
  streams : ∀ out ∈ value, streamOk out = true

/-- The section is rejected for a chain. -/
def RejectedForChaining (py : Builtins) (cfg : Config) (s : CoreStore) (value : List Doc) : Prop :=
  saveSection py cfg s .outbounds (.list value) = .error (coreError "Unknown chained outbound") ∨
    saveSection py cfg s .outbounds (.list value) = .error (coreError "Outbound chaining cycle")

theorem chainLinks_error {value : List Doc} {tags : List Atom} {e : Fault}
    (hstreams : ∀ out ∈ value, streamOk out = true) (h : chainLinks tags value = .error e) :
    e = coreError "Unknown chained outbound" := by
  have hlink : ∀ tag, ∀ out ∈ value, ∀ e, chainLink tags tag out = .error e →
      e = coreError "Unknown chained outbound" := by
    intro tag out hout e he
    unfold chainLink at he
    have hcheck : check (streamOk out) "Invalid outbound streamSettings/sockopt" = .ok () :=
      check_ok_iff.mpr (hstreams out hout)
    rw [hcheck] at he
    cases hvia : dialerProxy out with
    | none =>
        rw [hvia] at he
        cases he
    | some via =>
        rw [hvia] at he
        cases htarget : via.str?.filter fun s => .str s ∈ tags with
        | none =>
            simp only [bind, Except.bind, htarget] at he
            exact (Except.error.inj he).symm
        | some s =>
            simp only [bind, Except.bind, htarget] at he
            cases he
  have hpairs : ∀ (ts : List Atom) (vs : List Doc), (∀ out ∈ vs, out ∈ value) →
      ∀ e, (ts.zip vs).mapM (fun t => chainLink tags t.1 t.2) = .error e →
        e = coreError "Unknown chained outbound" := by
    intro ts
    induction ts with
    | nil =>
        intro vs _ e he
        cases he
    | cons t ts ih =>
        intro vs hvs e he
        cases vs with
        | nil => cases he
        | cons v vs =>
            rw [List.zip_cons_cons, List.mapM_cons] at he
            cases hfirst : chainLink tags t v with
            | error e' =>
                rw [hfirst] at he
                cases he
                exact hlink t v (hvs v List.mem_cons_self) _ hfirst
            | ok link =>
                rw [hfirst] at he
                cases hrest : (ts.zip vs).mapM fun t => chainLink tags t.1 t.2 with
                | error e' =>
                    simp only [hrest, bind, Except.bind] at he
                    cases he
                    exact ih vs (fun out hout => hvs out (List.mem_cons_of_mem _ hout)) _ hrest
                | ok links =>
                    simp only [hrest, bind, Except.bind] at he
                    cases he
  unfold chainLinks at h
  cases hmap : (tags.zip value).mapM fun t => chainLink tags t.1 t.2 with
  | error e' =>
      rw [hmap] at h
      cases h
      exact hpairs tags value (fun _ hout => hout) _ hmap
  | ok links =>
      rw [hmap] at h
      cases h

/-- The checks of a section that comes as far as the chains. -/
theorem saveSection_reaches {py : Builtins} {cfg : Config} {s : CoreStore} {value : List Doc}
    (h : ReachesChains py cfg value) : ∃ tags, value.mapM outboundTag = .ok tags ∧
      saveSection py cfg s .outbounds (.list value) = (do
        let links ← chainLinks tags value
        check (!chainCycle links) "Outbound chaining cycle"
        outboundReferences tags s.routing
        pure { s with outbounds := value }) := by
  obtain ⟨tags, htags, hnodup, hsettings⟩ := h.tags
  have hwrite : cfg.write = .ok () := by simp [Config.write, h.writes]
  have hshape : insist (Doc.list value).list? "Wrong settings shape" = .ok value :=
    insist_ok_iff.mpr rfl
  have hsize : check (decide ((py.dumps (.list value)).length ≤ 500000)) "Settings too large" =
      .ok () := check_ok_iff.mpr (by simpa using h.size)
  have hsome : check (!value.isEmpty) "At least one outbound is required" = .ok () :=
    check_ok_iff.mpr (by simpa using h.nonempty)
  have hdistinct : check (decide tags.Nodup) "Duplicate outbound tags" = .ok () :=
    check_ok_iff.mpr (by simpa using hnodup)
  have hpass : ((tags.zip value).forM fun t => outboundSettings py t.1 t.2) = .ok () :=
    except_forM_ok_iff.mpr hsettings
  refine ⟨tags, htags, ?_⟩
  simp only [saveSection, checkOutbounds, hwrite, hshape, hsize, hsome, htags, hdistinct, hpass,
    bind, Except.bind]
  cases chainLinks tags value with
  | error e => rfl
  | ok links =>
      dsimp only
      cases check (!chainCycle links) "Outbound chaining cycle" <;> rfl

theorem forM_ne_error {α : Type} {f : α → Except Fault Unit} {e : Fault} {xs : List α}
    (h : ∀ x, f x ≠ .error e) : xs.forM f ≠ .error e := by
  induction xs with
  | nil => intro he; cases he
  | cons x xs ih =>
      intro he
      have hcons : (x :: xs).forM f = f x >>= fun _ => xs.forM f := rfl
      rw [hcons] at he
      cases hx : f x with
      | error e' =>
          rw [hx] at he
          exact h x (hx.trans he)
      | ok u =>
          rw [hx] at he
          exact ih he

theorem check_ne_error {ok : Bool} {message : String} {e : Fault}
    (hne : coreError message ≠ e) : check ok message ≠ .error e := by
  unfold check
  by_cases h : ok = true
  · simp [h]
  · simpa [h] using hne

theorem selectorMatches_ne_coreError (selectors : List Doc) (tags : List Atom)
    (message : String) : selectorMatches selectors tags ≠ .error (coreError message) := by
  induction tags with
  | nil => intro h; cases h
  | cons tag tags ih =>
      cases tag with
      | str tag =>
          unfold selectorMatches
          split
          · intro h; cases h
          · exact ih
      | null => intro h; cases h
      | bool b => intro h; cases h
      | int n => intro h; cases h

/-- The references of the routing are not taken for chains. -/
theorem outboundReferences_ne {tags : List Atom} {routing : Doc} {message : String}
    (hrule : message ≠ "Routing still refers to an outbound being removed")
    (hfallback : message ≠ "Balancer fallback still refers to an outbound being removed")
    (hselector : message ≠
      "Outbound removal would leave a balancer selector with no matching outbound") :
    outboundReferences tags routing ≠ .error (coreError message) := by
  have hne : ∀ text : String, message ≠ text → coreError text ≠ coreError message := by
    intro text htext heq
    injection heq with hmessage
    exact htext hmessage.symm
  intro h
  unfold outboundReferences at h
  cases hrules : (routing.itemsAt "rules").forM fun r =>
      check (!r.truthyAt "outboundTag" || (r.get? "outboundTag").elim false (names tags))
        "Routing still refers to an outbound being removed" with
  | error e =>
      rw [hrules] at h
      exact forM_ne_error (fun r => check_ne_error (hne _ hrule)) (hrules.trans h)
  | ok u =>
      rw [hrules] at h
      refine forM_ne_error (fun b hb => ?_) h
      cases hcheck : check (!b.truthyAt "fallbackTag" ||
          (b.get? "fallbackTag").elim false (names tags))
          "Balancer fallback still refers to an outbound being removed" with
      | error e =>
          rw [hcheck] at hb
          exact check_ne_error (hne _ hfallback) (hcheck.trans hb)
      | ok u =>
          rw [hcheck] at hb
          simp only [bind, Except.bind] at hb
          split at hb
          · cases hb
          · cases hmatch : selectorMatches (b.itemsAt "selector") tags with
            | error e =>
                rw [hmatch] at hb
                have he : e = coreError message := Except.error.inj hb
                exact selectorMatches_ne_coreError _ _ _ (hmatch.trans (congrArg Except.error he))
            | ok matched =>
                rw [hmatch] at hb
                exact check_ne_error (hne _ hselector) hb

/-- A section that comes as far as the checks of the chains is rejected by them exactly if a
chain leaves the section or is cyclic. -/
theorem rejected_for_chaining_iff {py : Builtins} {cfg : Config} {s : CoreStore}
    {value : List Doc} (h : ReachesChains py cfg value) :
    RejectedForChaining py cfg s value ↔ ¬ (ChainsClosed value ∧ Acyclic (chainNext value)) := by
  obtain ⟨tags, htags, hsave⟩ := saveSection_reaches (s := s) h
  unfold RejectedForChaining
  rw [hsave, ← chainCycle_iff]
  cases hlinks : chainLinks tags value with
  | error e =>
      have he := chainLinks_error h.streams hlinks
      have hopen : ¬ ChainsClosed value := fun hclosed => by
        have hok := (chainLinks_ok_iff htags).mpr ⟨h.streams, hclosed, rfl⟩
        rw [hlinks] at hok
        cases hok
      subst he
      exact ⟨fun _ hboth => hopen hboth.1, fun _ => Or.inl rfl⟩
  | ok links =>
      obtain ⟨_, hclosed, rfl⟩ := (chainLinks_ok_iff htags).mp hlinks
      by_cases hcycle : chainCycle (storedLinks value) = true
      · have hrefuse : check (!chainCycle (storedLinks value)) "Outbound chaining cycle" =
            .error (coreError "Outbound chaining cycle") := by simp [check, hcycle]
        simp only [bind, Except.bind, hrefuse]
        exact ⟨fun _ hboth => by simp [hcycle] at hboth, fun _ => Or.inr trivial⟩
      · have hpass : check (!chainCycle (storedLinks value)) "Outbound chaining cycle" = .ok () :=
          check_ok_iff.mpr (by simpa using hcycle)
        have hrefs : ∀ message, message = "Unknown chained outbound" ∨
            message = "Outbound chaining cycle" →
            outboundReferences tags s.routing ≠ .error (coreError message) := by
          intro message hmessage
          apply outboundReferences_ne <;> rcases hmessage with rfl | rfl <;> decide
        simp only [bind, Except.bind, hpass]
        constructor
        · intro hrejected
          cases hreferences : outboundReferences tags s.routing with
          | error e =>
              rw [hreferences] at hrejected
              rcases hrejected with heq | heq
              · have he := Except.error.inj heq
                exact absurd (hreferences.trans (congrArg _ he)) (hrefs _ (Or.inl rfl))
              · have he := Except.error.inj heq
                exact absurd (hreferences.trans (congrArg _ he)) (hrefs _ (Or.inr rfl))
          | ok u =>
              rw [hreferences] at hrejected
              rcases hrejected with heq | heq <;> cases heq
        · intro hnot
          exact absurd ⟨hclosed, by simpa using hcycle⟩ hnot

/-! ## References of the sections -/

/-- A field is false, or it names one of the tags. -/
def RefersTo (d : Doc) (key : String) (tags : List Atom) : Prop :=
  d.truthyAt key = true → ∃ v, d.get? key = some v ∧ names tags v = true

theorem refersTo_iff {d : Doc} {key : String} {tags : List Atom} :
    (!d.truthyAt key || (d.get? key).elim false (names tags)) = true ↔ RefersTo d key tags := by
  unfold RefersTo
  cases hget : d.get? key with
  | none => simp [Doc.truthyAt, hget]
  | some v =>
      by_cases htrue : v.truthy = true
      · simp [Doc.truthyAt, hget, htrue]
      · simp [Doc.truthyAt, hget, htrue]

/-- One of the selectors is the beginning of one of the tags. -/
def Selects (selectors : List Doc) (tags : List Atom) : Prop :=
  ∃ tag s, .str tag ∈ tags ∧ .str s ∈ selectors.filterMap Doc.norm? ∧
    s.toList.isPrefixOf tag.toList = true

theorem selectorMatches_true {selectors : List Doc} {tags : List Atom}
    (h : selectorMatches selectors tags = .ok true) : Selects selectors tags := by
  induction tags with
  | nil => cases h
  | cons tag tags ih =>
      cases tag with
      | str tag =>
          unfold selectorMatches at h
          by_cases hsel : (selectors.any fun sel =>
              sel.str?.elim false fun s => s.toList.isPrefixOf tag.toList) = true
          · obtain ⟨sel, hmem, hprefix⟩ := List.any_eq_true.mp hsel
            cases sel with
            | atom a =>
                cases a with
                | str s =>
                    exact ⟨tag, s, List.mem_cons_self,
                      List.mem_filterMap.mpr ⟨_, hmem, rfl⟩, hprefix⟩
                | null => cases hprefix
                | bool b => cases hprefix
                | int n => cases hprefix
            | list items => cases hprefix
            | dict fields => cases hprefix
          · rw [if_neg hsel] at h
            obtain ⟨tag', s, htag, hs, hprefix⟩ := ih h
            exact ⟨tag', s, List.mem_cons_of_mem _ htag, hs, hprefix⟩
      | null => cases h
      | bool b => cases h
      | int n => cases h

/-- The tags of the stored balancers. -/
def balancerTags (routing : Doc) : List Atom :=
  (routing.itemsAt "balancers").filterMap fun b => (b.get? "tag").bind Doc.norm?

/-- Every reference of the sections has its target. -/
structure Linked (s : CoreStore) : Prop where
  outboundTags : ∀ rule ∈ s.routing.itemsAt "rules",
    RefersTo rule "outboundTag" (storedTags s.outbounds)
  balancerTags : ∀ rule ∈ s.routing.itemsAt "rules",
    RefersTo rule "balancerTag" (balancerTags s.routing)
  selectors : ∀ b ∈ s.routing.itemsAt "balancers",
    Selects (b.itemsAt "selector") (storedTags s.outbounds)
  fallbacks : ∀ b ∈ s.routing.itemsAt "balancers",
    RefersTo b "fallbackTag" (storedTags s.outbounds)
  closed : ChainsClosed s.outbounds
  acyclic : Acyclic (chainNext s.outbounds)
  hosts : ∀ host ∈ s.hosts, ∃ i : ℕ, (host.get? "inboundId").bind Doc.int? = some (i : ℤ) ∧
    (s.inbounds.get? i).isSome

/-- What accepted outbounds are. -/
theorem checkOutbounds_ok {py : Builtins} {routing : Doc} {value : List Doc}
    (h : checkOutbounds py routing value = .ok ()) :
    ChainsClosed value ∧ Acyclic (chainNext value) ∧
      outboundReferences (storedTags value) routing = .ok () := by
  simp only [checkOutbounds, except_bind_ok_iff, check_ok_iff] at h
  obtain ⟨_, _, tags, htags, _, _, _, _, links, hlinks, _, hcycle, hrefs⟩ := h
  obtain ⟨_, hclosed, rfl⟩ := (chainLinks_ok_iff htags).mp hlinks
  rw [storedTags_of_ok htags]
  exact ⟨hclosed, (chainCycle_iff value).mp (by simpa using hcycle), hrefs⟩

/-- What the routing refers to among accepted outbounds. -/
theorem outboundReferences_ok {tags : List Atom} {routing : Doc}
    (h : outboundReferences tags routing = .ok ()) :
    (∀ rule ∈ routing.itemsAt "rules", RefersTo rule "outboundTag" tags) ∧
      ∀ b ∈ routing.itemsAt "balancers", RefersTo b "fallbackTag" tags ∧
        (b.itemsAt "selector" ≠ [] → Selects (b.itemsAt "selector") tags) := by
  simp only [outboundReferences, except_bind_ok_iff, except_forM_ok_iff, check_ok_iff,
    refersTo_iff] at h
  obtain ⟨_, hrules, hbalancers⟩ := h
  refine ⟨hrules, fun b hb => ?_⟩
  obtain ⟨_, hfallback, hselect⟩ := hbalancers b hb
  refine ⟨hfallback, fun hne => ?_⟩
  have hnot : ¬ (b.itemsAt "selector").isEmpty = true := by simpa using hne
  rw [if_neg hnot] at hselect
  simp only [except_bind_ok_iff, check_ok_iff] at hselect
  obtain ⟨matched, hmatch, rfl⟩ := hselect
  exact selectorMatches_true hmatch

/-- What an accepted balancer refers to. -/
theorem checkBalancer_ok {tags : List Atom} {btags : List String} {b : Doc} {tag : String}
    (h : checkBalancer tags btags b = .ok tag) :
    (b.get? "tag").bind Doc.norm? = some (.str tag) ∧ Selects (b.itemsAt "selector") tags ∧
      RefersTo b "fallbackTag" tags := by
  simp only [checkBalancer, except_bind_ok_iff, insist_ok_iff, check_ok_iff, except_pure_ok_iff,
    refersTo_iff] at h
  obtain ⟨_, htag, selectors, hselectors, _, hmatch, _, rfl, _, _, _, hfallback, rfl⟩ := h
  have htext := (Option.filter_eq_some_iff.mp htag).1
  have hlist := (Option.filter_eq_some_iff.mp hselectors).1
  have hitems : b.itemsAt "selector" = selectors := by
    unfold Doc.itemsAt
    rw [hlist]
    rfl
  refine ⟨?_, hitems ▸ selectorMatches_true hmatch, hfallback⟩
  obtain ⟨d, hd, hstr⟩ := Option.bind_eq_some_iff.mp htext
  rw [hd]
  cases d with
  | atom a =>
      cases a with
      | str s =>
          cases hstr
          rfl
      | null => cases hstr
      | bool b => cases hstr
      | int n => cases hstr
  | list items => cases hstr
  | dict fields => cases hstr

/-- What accepted balancers refer to, and that their tags are the collected ones. -/
theorem checkBalancers_ok {tags : List Atom} {balancers : List Doc} :
    ∀ {btags all : List String}, checkBalancers tags btags balancers = .ok all →
      (∀ b ∈ balancers, Selects (b.itemsAt "selector") tags ∧ RefersTo b "fallbackTag" tags) ∧
        ∀ x ∈ all, x ∈ btags ∨
          .str x ∈ balancers.filterMap fun b => (b.get? "tag").bind Doc.norm? := by
  induction balancers with
  | nil =>
      intro btags all h
      have hall : btags = all := Except.ok.inj h
      subst hall
      exact ⟨by simp, fun x hx => Or.inl hx⟩
  | cons b balancers ih =>
      intro btags all h
      simp only [checkBalancers, except_bind_ok_iff] at h
      obtain ⟨tag, htag, hrest⟩ := h
      obtain ⟨hstored, hselects, hfallback⟩ := checkBalancer_ok htag
      obtain ⟨hbalancers, htags⟩ := ih hrest
      refine ⟨List.forall_mem_cons.mpr ⟨⟨hselects, hfallback⟩, hbalancers⟩, fun x hx => ?_⟩
      rw [List.filterMap_cons, hstored]
      rcases htags x hx with hmem | hmem
      · rcases List.mem_append.mp hmem with hold | hnew
        · exact Or.inl hold
        · have hxt : x = tag := List.mem_singleton.mp hnew
          exact Or.inr (by simp [hxt])
      · exact Or.inr (List.mem_cons_of_mem _ hmem)

/-- A rule is stored with the fields that refer to something as they were submitted. -/
theorem checkRule_ok {py : Builtins} {tags : List Atom} {btags : List String} {rule stored : Doc}
    (h : checkRule py tags btags rule = .ok stored) :
    RefersTo stored "outboundTag" tags ∧ RefersTo stored "balancerTag" (btags.map Atom.str) := by
  simp only [checkRule, except_bind_ok_iff, check_ok_iff, except_pure_ok_iff,
    refersTo_iff] at h
  obtain ⟨_, hdict, _, houtbound, _, _, _, hbalancer, _, _, rfl⟩ := h
  have hkeep : ∀ key, key ≠ "protocol" → (splitProtocols py rule).get? key = rule.get? key := by
    intro key hkey
    unfold splitProtocols
    split
    · rfl
    · rw [Doc.get?_set hdict, if_neg (Ne.symm hkey)]
  have hrefers : ∀ key tags, key ≠ "protocol" → RefersTo rule key tags →
      RefersTo (splitProtocols py rule) key tags := by
    intro key tags hkey href
    unfold RefersTo Doc.truthyAt at href ⊢
    rwa [hkeep key hkey]
  exact ⟨hrefers _ _ (by decide) houtbound, hrefers _ _ (by decide) hbalancer⟩

/-- What an accepted routing refers to. -/
theorem checkRouting_ok {py : Builtins} {outbounds : List Doc} {value routing : Doc}
    (h : checkRouting py outbounds value = .ok routing) :
    (∀ rule ∈ routing.itemsAt "rules", RefersTo rule "outboundTag" (storedTags outbounds) ∧
      RefersTo rule "balancerTag" (balancerTags routing)) ∧
      ∀ b ∈ routing.itemsAt "balancers", Selects (b.itemsAt "selector") (storedTags outbounds) ∧
        RefersTo b "fallbackTag" (storedTags outbounds) := by
  simp only [checkRouting, except_bind_ok_iff, check_ok_iff, except_pure_ok_iff] at h
  obtain ⟨_, _, rules, hrules, balancers, hbalancers, btags, hbtags, stored, hstored, rfl⟩ := h
  have hitems : ∀ {key : String} {items : List Doc} {message : String},
      arrayAt value key message = .ok items → value.itemsAt key = items := by
    intro key items message harray
    have hlist := insist_ok_iff.mp harray
    unfold Doc.itemsAt
    cases hget : value.get? key with
    | none =>
        rw [Doc.getD, hget] at hlist
        exact Option.some.inj hlist
    | some d =>
        rw [Doc.getD, hget] at hlist
        have hd : d.list? = some items := hlist
        simp [hd]
  generalize hrouting : (if (value.get? "rules").isSome then value.set "rules" (.list stored)
    else value) = routing
  have hbal : routing.itemsAt "balancers" = balancers := by
    rw [← hitems hbalancers, ← hrouting]
    split
    · rename_i hsome
      have hdict : value.isDict = true := by
        cases value with
        | dict fields => rfl
        | atom a => cases hsome
        | list items => cases hsome
      unfold Doc.itemsAt
      rw [Doc.get?_set hdict, if_neg (by decide)]
    · rfl
  have hrul : ∀ rule ∈ routing.itemsAt "rules", rule ∈ stored := by
    intro rule hrule
    rw [← hrouting] at hrule
    split at hrule
    · rename_i hsome
      have hdict : value.isDict = true := by
        cases value with
        | dict fields => rfl
        | atom a => cases hsome
        | list items => cases hsome
      unfold Doc.itemsAt at hrule
      rw [Doc.get?_set hdict, if_pos rfl] at hrule
      exact hrule
    · rename_i hnone
      have hget : value.get? "rules" = none := by simpa using hnone
      simp [Doc.itemsAt, hget] at hrule
  obtain ⟨hselect, htags⟩ := checkBalancers_ok hbtags
  constructor
  · intro rule hrule
    obtain ⟨submitted, _, hchecked⟩ := exists_of_mem_mapM hstored (hrul rule hrule)
    obtain ⟨houtbound, hbalancer⟩ := checkRule_ok hchecked
    refine ⟨houtbound, fun htrue => ?_⟩
    obtain ⟨v, hv, hnames⟩ := hbalancer htrue
    refine ⟨v, hv, ?_⟩
    unfold names at hnames ⊢
    cases hnorm : v.norm? with
    | none => simp [hnorm] at hnames
    | some a =>
        simp only [hnorm, Option.elim_some, decide_eq_true_eq] at hnames ⊢
        obtain ⟨x, hx, rfl⟩ := List.mem_map.mp hnames
        rcases htags x hx with hnil | hmem
        · cases hnil
        · unfold Core.balancerTags
          rw [hbal]
          exact hmem
  · intro b hb
    exact hselect b (hbal ▸ hb)

/-- The inbound of an accepted host is known, and stored as it was submitted. -/
theorem checkHost_ok {py : Builtins} {known : List ℕ} {submitted host : Doc}
    (h : checkHost py known submitted = .ok host) :
    ∃ i ∈ known, (host.get? "inboundId").bind Doc.int? = some (i : ℤ) := by
  simp only [checkHost, except_bind_ok_iff, check_ok_iff, insist_ok_iff, except_pure_ok_iff] at h
  obtain ⟨_, hid, addresses, _, address, _, _, _, _, _, runtime, _, endpoint, _, _, _, security, _,
    _, _, _, _, _, _, _, _, mask, _, alpn, _, rfl⟩ := h
  have hkept : ∀ d : Doc, (hostSwitches.foldl (fun h key => h.setDefault key (.bool false)) d).get?
      "inboundId" = d.get? "inboundId" := by
    intro d
    simp only [hostSwitches, List.foldl_cons, List.foldl_nil]
    rw [Doc.get?_setDefault_of_ne _ (by decide), Doc.get?_setDefault_of_ne _ (by decide),
      Doc.get?_setDefault_of_ne _ (by decide)]
  have haddress : ∀ d : Doc, (if 1 < addresses.length then
      d.set "addresses" (.list (addresses.map Doc.str)) else d.erase "addresses").get?
        "inboundId" = d.get? "inboundId" := by
    intro d
    split
    · rw [Doc.get?_set_of_ne _ (by decide)]
    · rw [Doc.get?_erase, if_neg (by decide)]
  have halpn : ∀ d : Doc, (alpn.elim d fun s => d.set "alpn" (.str s)).get? "inboundId" =
      d.get? "inboundId" := by
    intro d
    cases alpn with
    | none => rfl
    | some s => exact Doc.get?_set_of_ne d (by decide) _
  rw [halpn, Doc.get?_set_of_ne _ (by decide), Doc.get?_set_of_ne _ (by decide), hkept,
    Doc.get?_set_of_ne _ (by decide), Doc.get?_set_of_ne _ (by decide),
    Doc.get?_set_of_ne _ (by decide), haddress, Doc.get?_set_of_ne _ (by decide)]
  cases hinbound : (submitted.get? "inboundId").bind Doc.int? with
  | none => simp [hinbound] at hid
  | some n =>
      simp only [hinbound, Option.elim_some, Bool.and_eq_true, List.any_eq_true,
        decide_eq_true_eq] at hid
      obtain ⟨_, i, hi, rfl⟩ := hid
      exact ⟨i, hi, rfl⟩

/-- What accepted hosts refer to. -/
theorem checkHosts_ok {py : Builtins} {known : List ℕ} {value hosts : List Doc}
    (h : checkHosts py known value = .ok hosts) :
    ∀ host ∈ hosts, ∃ i ∈ known, (host.get? "inboundId").bind Doc.int? = some (i : ℤ) := by
  intro host hhost
  obtain ⟨submitted, _, hchecked⟩ := exists_of_mem_mapM h hhost
  exact checkHost_ok hchecked

/-! ## Edits keep the references -/

namespace Linked

variable {py : Builtins} {cfg : Config} {s t : CoreStore}

/-- The inbounds only matter for the hosts. -/
theorem withInbounds (h : Linked s) {inbounds : Table ℕ Inbound} {nextId : ℕ}
    (hkeep : ∀ host ∈ s.hosts, ∀ i : ℕ, (host.get? "inboundId").bind Doc.int? = some (i : ℤ) →
      (s.inbounds.get? i).isSome → (inbounds.get? i).isSome) :
    Linked { s with inbounds, nextId } where
  outboundTags := h.outboundTags
  balancerTags := h.balancerTags
  selectors := h.selectors
  fallbacks := h.fallbacks
  closed := h.closed
  acyclic := h.acyclic
  hosts := fun host hmem => by
    obtain ⟨i, hid, hsome⟩ := h.hosts host hmem
    exact ⟨i, hid, hkeep host hmem i hid hsome⟩

/-- Saving a section keeps the references of all sections. -/
theorem saved (h : Linked s) {name : SectionName} {value : Doc}
    (hok : saveSection py cfg s name value = .ok t) : Linked t := by
  cases name with
  | outbounds =>
      simp only [saveSection, except_bind_ok_iff, check_ok_iff, insist_ok_iff,
        except_pure_ok_iff] at hok
      obtain ⟨_, _, items, _, _, _, _, hcheck, rfl⟩ := hok
      obtain ⟨hclosed, hacyclic, hrefs⟩ := checkOutbounds_ok hcheck
      obtain ⟨hrules, hbalancers⟩ := outboundReferences_ok hrefs
      exact {
        outboundTags := hrules
        balancerTags := h.balancerTags
        selectors := fun b hb => by
          -- a stored balancer has selectors, for one of them matched before
          obtain ⟨_, x, _, hsel, _⟩ := h.selectors b hb
          apply (hbalancers b hb).2
          intro hnil
          simp [hnil] at hsel
        fallbacks := fun b hb => (hbalancers b hb).1
        closed := hclosed
        acyclic := hacyclic
        hosts := h.hosts }
  | routing =>
      simp only [saveSection, except_bind_ok_iff, check_ok_iff, except_pure_ok_iff] at hok
      obtain ⟨_, _, _, _, _, _, routing, hcheck, rfl⟩ := hok
      obtain ⟨hrules, hbalancers⟩ := checkRouting_ok hcheck
      exact {
        outboundTags := fun rule hrule => (hrules rule hrule).1
        balancerTags := fun rule hrule => (hrules rule hrule).2
        selectors := fun b hb => (hbalancers b hb).1
        fallbacks := fun b hb => (hbalancers b hb).2
        closed := h.closed
        acyclic := h.acyclic
        hosts := h.hosts }
  | hosts =>
      simp only [saveSection, except_bind_ok_iff, check_ok_iff, insist_ok_iff,
        except_pure_ok_iff] at hok
      obtain ⟨_, _, items, _, _, _, hosts, hcheck, rfl⟩ := hok
      exact {
        outboundTags := h.outboundTags
        balancerTags := h.balancerTags
        selectors := h.selectors
        fallbacks := h.fallbacks
        closed := h.closed
        acyclic := h.acyclic
        hosts := fun host hhost => by
          obtain ⟨i, hi, hid⟩ := checkHosts_ok hcheck host hhost
          obtain ⟨row, hrow, rfl⟩ := List.mem_map.mp hi
          have hget := Table.get?_eq_some_iff.mpr hrow
          exact ⟨row.1, hid, by simp [hget]⟩ }

/-- Every edit keeps the references of the sections. -/
theorem edited {e : Edit} (h : Linked s) (hstep : Edited py cfg s e t) : Linked t := by
  rcases hstep.cases with rfl | hok
  · exact h
  · cases e with
    | saveSection name value => exact h.saved hok
    | saveInbound fresh data i =>
        obtain ⟨v, ports, _, hexists, _, rfl⟩ := saveInbound_ok hok
        cases i with
        | none =>
            apply h.withInbounds
            intro host _ i _ hsome
            obtain ⟨row, hrow⟩ := Option.isSome_iff_exists.mp hsome
            simp [Table.get?_insert_of_some hrow]
        | some k =>
            apply h.withInbounds
            intro host _ i _ hsome
            rw [Table.get?_update]
            by_cases hi : i = k
            · simpa [hi] using hexists k rfl
            · simpa [hi] using hsome
    | deleteInbound k =>
        obtain ⟨hfree, rfl⟩ := deleteInbound_ok hok
        apply h.withInbounds
        intro host hmem i hid hsome
        have hne : i ≠ k := fun heq => hfree host hmem (heq ▸ hid)
        rw [Table.get?_erase, if_neg hne]
        exact hsome
    | setClients clients managed =>
        have ht : { s with clients, managed } = t := Except.ok.inj hok
        subst ht
        exact { h with }

end Linked

/-! ## Named inbounds -/

/-- The store, and for every stored rule the inbounds that it named when it was saved. -/
structure Watched where
  store : CoreStore
  named : List (List ℕ)

/-- The inbounds that the rules name by their tags. -/
def namedBy (s : CoreStore) : List (List ℕ) :=
  (s.routing.itemsAt "rules").map fun rule =>
    (s.inbounds.rows.filter fun row => listsInbound rule row.2.tag).map Prod.fst

namespace Watched

/-- An edit; rules are saved with the routing. -/
def edit (py : Builtins) (cfg : Config) (w : Watched) (e : Edit) : Watched where
  store := w.store.edit py cfg e
  named :=
    match e with
    | .saveSection .routing value =>
        match saveSection py cfg w.store .routing value with
        | .ok t => namedBy t
        | .error _ => w.named
    | _ => w.named

/-- One edit, accepted or rejected. -/
def Edited (py : Builtins) (cfg : Config) (w : Watched) (e : Edit) (w' : Watched) : Prop :=
  w.edit py cfg e = w'

/-- Every rule names an inbound that it named when it was saved by its current tag. -/
structure NamesKept (w : Watched) : Prop where
  names : List.Forall₂ (fun rule ids => ∀ i ∈ ids, ∀ v, w.store.inbounds.get? i = some v →
    listsInbound rule v.tag = true) (w.store.routing.itemsAt "rules") w.named
  old : ∀ ids ∈ w.named, ∀ i ∈ ids, i < w.store.nextId

/-- An accepted edit of an inbound submits a tag that the rules that list the tag of the
inbound list as well. -/
def TagStays (py : Builtins) (cfg : Config) (w : Watched) (e : Edit) : Prop :=
  ∀ fresh data i t, e = .saveInbound fresh data (some i) →
    saveInbound py cfg fresh w.store data (some i) = .ok t →
    ∀ old v ports, w.store.inbounds.get? i = some old →
      parseInbound py cfg fresh data = .ok (v, ports) →
      ∀ rule ∈ w.store.routing.itemsAt "rules", listsInbound rule old.tag = true →
        listsInbound rule v.tag = true

variable {py : Builtins} {cfg : Config} {w w' : Watched}

/-- Saved rules name what they name. -/
theorem NamesKept.of_saved {s : CoreStore}
    (hfresh : ∀ i v, s.inbounds.get? i = some v → i < s.nextId) :
    NamesKept { store := s, named := namedBy s } where
  names := by
    unfold namedBy
    rw [List.forall₂_map_right_iff, List.forall₂_same]
    intro rule _ i hi v hv
    obtain ⟨row, hrow, rfl⟩ := List.mem_map.mp hi
    obtain ⟨hmem, hlists⟩ := List.mem_filter.mp hrow
    have hget := Table.get?_eq_some_iff.mpr hmem
    rw [hv] at hget
    cases hget
    exact hlists
  old := by
    intro ids hids i hi
    obtain ⟨rule, _, rfl⟩ := List.mem_map.mp hids
    obtain ⟨row, hrow, rfl⟩ := List.mem_map.mp hi
    exact hfresh row.1 row.2 (Table.get?_eq_some_iff.mpr (List.mem_filter.mp hrow).1)

/-- Only the inbounds change, and each inbound that a rule names keeps a listed tag. -/
theorem NamesKept.withInbounds (h : NamesKept w) {t : CoreStore}
    (hrouting : t.routing = w.store.routing) (hnext : w.store.nextId ≤ t.nextId)
    (hkeep : ∀ rule ∈ w.store.routing.itemsAt "rules", ∀ i, i < w.store.nextId →
      (∀ v, w.store.inbounds.get? i = some v → listsInbound rule v.tag = true) →
      ∀ v, t.inbounds.get? i = some v → listsInbound rule v.tag = true) :
    NamesKept { store := t, named := w.named } where
  names := by
    rw [hrouting]
    have hall := h.names
    have hold := h.old
    generalize w.named = named at hall hold ⊢
    revert hkeep
    generalize w.store.routing.itemsAt "rules" = rules at hall ⊢
    intro hkeep
    induction hall with
    | nil => exact List.Forall₂.nil
    | cons hrule _ ih =>
        refine List.Forall₂.cons (fun i hi => ?_) (ih (fun ids hids => ?_) fun r hr => ?_)
        · exact hkeep _ List.mem_cons_self i (hold _ List.mem_cons_self i hi) (hrule i hi)
        · exact hold ids (List.mem_cons_of_mem _ hids)
        · exact hkeep r (List.mem_cons_of_mem _ hr)
  old := fun ids hids i hi => Nat.lt_of_lt_of_le (h.old ids hids i hi) hnext

/-- The ids of the rows stay below the next one. -/
theorem fresh_edited {s t : CoreStore} {e : Edit}
    (h : ∀ i v, s.inbounds.get? i = some v → i < s.nextId) (hstep : Core.Edited py cfg s e t) :
    ∀ i v, t.inbounds.get? i = some v → i < t.nextId := by
  rcases hstep.cases with rfl | hok
  · exact h
  · intro i v hv
    cases e with
    | saveSection name value =>
        obtain ⟨hrows, hnext⟩ := saveSection_inbounds hok
        rw [hrows] at hv
        exact hnext ▸ h i v hv
    | saveInbound fresh data k =>
        obtain ⟨r, ports, _, _, _, rfl⟩ := saveInbound_ok hok
        cases k with
        | none =>
            have hnew : s.inbounds.get? s.nextId = none := by
              cases hrow : s.inbounds.get? s.nextId with
              | none => rfl
              | some q => exact absurd (h _ q hrow) (Nat.lt_irrefl _)
            have hnext : (s.putInbound r none).nextId = s.nextId + 1 := rfl
            have hget := Table.get?_insert hnew r i
            by_cases hi : i = s.nextId
            · omega
            · have hold : s.inbounds.get? i = some v := by
                rw [if_neg hi] at hget
                exact hget ▸ hv
              have hlt := h i v hold
              omega
        | some k =>
            have hget := Table.get?_update s.inbounds k (fun _ => r) i
            have hnext : (s.putInbound r (some k)).nextId = s.nextId := rfl
            have hv' : (s.inbounds.update k fun _ => r).get? i = some v := hv
            rw [hget] at hv'
            rw [hnext]
            by_cases hi : i = k
            · rw [if_pos hi] at hv'
              obtain ⟨old, hold, _⟩ := Option.map_eq_some_iff.mp hv'
              exact h i old hold
            · rw [if_neg hi] at hv'
              exact h i v hv'
    | deleteInbound k =>
        obtain ⟨_, rfl⟩ := deleteInbound_ok hok
        rw [Table.get?_erase] at hv
        by_cases hi : i = k
        · simp [hi] at hv
        · exact h i v (by simpa [hi] using hv)
    | setClients clients managed =>
        have ht : { s with clients, managed } = t := Except.ok.inj hok
        subst ht
        exact h i v hv

/-- Rules go on naming the inbounds that they named, as long as tags stay. -/
theorem NamesKept.edited {e : Edit} (h : NamesKept w)
    (hfresh : ∀ i v, w.store.inbounds.get? i = some v → i < w.store.nextId)
    (hstep : Edited py cfg w e w') (hstays : TagStays py cfg w e) : NamesKept w' := by
  have hwatch : w.edit py cfg e = w' := hstep
  subst hwatch
  cases hattempt : e.attempt py cfg w.store with
  | error fault =>
      have hstore : w.store.edit py cfg e = w.store := by simp [CoreStore.edit, hattempt]
      have hsame : w.edit py cfg e = w := by
        unfold edit
        rw [hstore]
        cases e with
        | saveSection name value =>
            cases name with
            | routing =>
                have hfails : saveSection py cfg w.store .routing value = .error fault := hattempt
                simp [hfails]
            | outbounds => rfl
            | hosts => rfl
        | saveInbound fresh data i => rfl
        | deleteInbound i => rfl
        | setClients clients managed => rfl
      rw [hsame]
      exact h
  | ok t =>
      have hstore : w.store.edit py cfg e = t := by simp [CoreStore.edit, hattempt]
      have hfresh' := fresh_edited hfresh hstore
      unfold edit
      rw [hstore]
      cases e with
      | saveSection name value =>
          have hok : saveSection py cfg w.store name value = .ok t := hattempt
          obtain ⟨hrows, hnext⟩ := saveSection_inbounds hok
          cases name with
          | routing =>
              simp only [hok]
              exact .of_saved hfresh'
          | outbounds =>
              simp only [saveSection, except_bind_ok_iff, except_pure_ok_iff] at hok
              obtain ⟨_, _, _, _, _, _, _, _, rfl⟩ := hok
              exact h.withInbounds rfl (Nat.le_refl _) fun _ _ _ _ hold => hold
          | hosts =>
              simp only [saveSection, except_bind_ok_iff, except_pure_ok_iff] at hok
              obtain ⟨_, _, _, _, _, _, _, _, rfl⟩ := hok
              exact h.withInbounds rfl (Nat.le_refl _) fun _ _ _ _ hold => hold
      | saveInbound fresh data k =>
          obtain ⟨v, ports, hparse, _, _, rfl⟩ := saveInbound_ok hattempt
          cases k with
          | none =>
              apply h.withInbounds (t := w.store.putInbound v none) rfl (Nat.le_succ _)
              intro rule _ i hi hold r hr
              have hnew : w.store.inbounds.get? w.store.nextId = none := by
                cases hrow : w.store.inbounds.get? w.store.nextId with
                | none => rfl
                | some q => exact absurd (hfresh _ q hrow) (Nat.lt_irrefl _)
              have hget := Table.get?_insert hnew v i
              rw [if_neg (Nat.ne_of_lt hi)] at hget
              exact hold r (hget ▸ hr)
          | some k =>
              apply h.withInbounds (t := w.store.putInbound v (some k)) rfl (Nat.le_refl _)
              intro rule hrule i _ hold r hr
              have hr' : (w.store.inbounds.update k fun _ => v).get? i = some r := hr
              rw [Table.get?_update] at hr'
              by_cases hi : i = k
              · subst hi
                rw [if_pos rfl] at hr'
                obtain ⟨old, hget, rfl⟩ := Option.map_eq_some_iff.mp hr'
                exact hstays fresh data i _ rfl hattempt old v ports hget hparse rule hrule (hold old hget)
              · rw [if_neg hi] at hr'
                exact hold r hr'
      | deleteInbound k =>
          obtain ⟨_, rfl⟩ := deleteInbound_ok hattempt
          apply h.withInbounds (t := { w.store with inbounds := w.store.inbounds.erase k }) rfl
            (Nat.le_refl _)
          intro rule _ i _ hold r hr
          rw [Table.get?_erase] at hr
          by_cases hi : i = k
          · simp [hi] at hr
          · exact hold r (by simpa [hi] using hr)
      | setClients clients managed =>
          have ht : { w.store with clients, managed } = t := Except.ok.inj hattempt
          subst ht
          exact h.withInbounds rfl (Nat.le_refl _) fun _ _ _ _ hold => hold

end Watched

/-! ## Runs -/

/-- Every section of the store has been accepted beside the others, and the next id is new. -/
structure Accepted (py : Builtins) (s : CoreStore) : Prop where
  outbounds : checkOutbounds py s.routing s.outbounds = .ok ()
  routing : ∃ submitted, checkRouting py s.outbounds submitted = .ok s.routing
  hosts : ∃ submitted, checkHosts py (s.inbounds.rows.map Prod.fst) submitted = .ok s.hosts
  fresh : ∀ i v, s.inbounds.get? i = some v → i < s.nextId

/-- Accepted sections refer to each other. -/
theorem Accepted.linked {py : Builtins} {s : CoreStore} (h : Accepted py s) : Linked s := by
  obtain ⟨hclosed, hacyclic, _⟩ := checkOutbounds_ok h.outbounds
  obtain ⟨submitted, hrouting⟩ := h.routing
  obtain ⟨hrules, hbalancers⟩ := checkRouting_ok hrouting
  obtain ⟨_, hhosts⟩ := h.hosts
  exact {
    outboundTags := fun rule hrule => (hrules rule hrule).1
    balancerTags := fun rule hrule => (hrules rule hrule).2
    selectors := fun b hb => (hbalancers b hb).1
    fallbacks := fun b hb => (hbalancers b hb).2
    closed := hclosed
    acyclic := hacyclic
    hosts := fun host hhost => by
      obtain ⟨i, hi, hid⟩ := checkHosts_ok hhosts host hhost
      obtain ⟨row, hrow, rfl⟩ := List.mem_map.mp hi
      exact ⟨row.1, hid, by simp [Table.get?_eq_some_iff.mpr hrow]⟩ }

/-- From accepted sections every run of edits, accepted or rejected, keeps the references of
the sections, and a section is rejected for its chains exactly if one of them is cyclic or
leaves the section.  In a run in which tags stay, every rule names an inbound that it named
when it was saved by its current tag. -/
theorem references_kept {py : Builtins} {cfg : Config} {s₀ : CoreStore}
    (hstart : Accepted py s₀) :
    (∀ es w, Run (Watched.Edited py cfg) { store := s₀, named := namedBy s₀ } es w →
      Linked w.store ∧ ∀ value, ReachesChains py cfg value →
        (RejectedForChaining py cfg w.store value ↔
          ¬ (ChainsClosed value ∧ Acyclic (chainNext value)))) ∧
      ∀ es w, Run (Guarded (Watched.Edited py cfg) (Watched.TagStays py cfg))
        { store := s₀, named := namedBy s₀ } es w → w.NamesKept := by
  have hstore : ∀ {w w' : Watched} {e : Edit}, Watched.Edited py cfg w e w' →
      Edited py cfg w.store e w'.store := fun h => congrArg Watched.store h
  constructor
  · intro es w hrun
    have hstep : ∀ (a : Watched) (e : Edit) (b : Watched), Linked a.store →
        Watched.Edited py cfg a e b → Linked b.store :=
      fun _ _ _ h hstep => h.edited (hstore hstep)
    have hlinked : Linked w.store := hrun.invariant hstart.linked hstep
    exact ⟨hlinked, fun value hreaches => rejected_for_chaining_iff hreaches⟩
  · intro es w hrun
    have hstep : ∀ (a : Watched) (e : Edit) (b : Watched),
        (a.NamesKept ∧ ∀ i v, a.store.inbounds.get? i = some v → i < a.store.nextId) →
          Guarded (Watched.Edited py cfg) (Watched.TagStays py cfg) a e b →
            b.NamesKept ∧ ∀ i v, b.store.inbounds.get? i = some v → i < b.store.nextId :=
      fun _ _ _ h hstep =>
        ⟨h.1.edited h.2 hstep.1 hstep.2, Watched.fresh_edited h.2 (hstore hstep.1)⟩
    exact (hrun.invariant ⟨Watched.NamesKept.of_saved hstart.fresh, hstart.fresh⟩ hstep).1

/-! ## A renamed inbound -/

/-- The default sections have been accepted. -/
theorem accepted_fresh : Accepted Builtins.ascii CoreStore.fresh where
  outbounds := by
    have hpass : (checkOutbounds Builtins.ascii CoreStore.fresh.routing
        CoreStore.fresh.outbounds).toOption = some () := by decide +kernel
    cases hcheck : checkOutbounds Builtins.ascii CoreStore.fresh.routing
        CoreStore.fresh.outbounds with
    | error e =>
        rw [hcheck] at hpass
        cases hpass
    | ok u => rfl
  routing := ⟨CoreStore.fresh.routing, rfl⟩
  hosts := ⟨[], rfl⟩
  fresh := fun i v hv => by cases hv

/-- A submitted inbound without a tunnel port. -/
def plainInbound (tag : String) : Doc :=
  .dict [("protocol", .str "vless"), ("port", .int 1000), ("tag", .str tag)]

/-- A routing whose one rule names an inbound by its tag. -/
def routingFor (tag : String) : Doc :=
  .dict [("rules", .list [.dict [("inboundTag", .list [.str tag]),
    ("outboundTag", .str "direct")]])]

/-- An inbound is added and named by a rule; then it is saved under the given tag. -/
def renamedTo (tag : String) : List Edit :=
  [.saveInbound "" (plainInbound "first") none, .saveSection .routing (routingFor "first"),
    .saveInbound "" (plainInbound tag) (some 1)]

/-- The watched default store. -/
def watchedFresh : Watched where
  store := CoreStore.fresh
  named := namedBy CoreStore.fresh

/-- The default store after a list of edits. -/
def watchAll (es : List Edit) : Watched :=
  es.foldl (Watched.edit Builtins.ascii Config.default) watchedFresh

theorem run_watchAll (es : List Edit) :
    Run (Watched.Edited Builtins.ascii Config.default) watchedFresh es (watchAll es) := by
  have heval : es.foldlM (fun w e => some (w.edit Builtins.ascii Config.default e))
      watchedFresh = some (watchAll es) := List.foldlM_pure
  exact (Run.of_eval heval).mono fun _ _ _ h => Option.some.inj h

/-- The inbound as it is submitted under a tag carries the tag. -/
theorem parse_plainInbound {v : Inbound} {ports : List (String × Port)}
    (h : parseInbound Builtins.ascii Config.default "" (plainInbound "first") = .ok (v, ports)) :
    v.tag = "first" := by
  have hparse : (parseInbound Builtins.ascii Config.default "" (plainInbound "first")).toOption.map
      (fun parsed => parsed.1.tag) = some "first" := by decide +kernel
  rw [h] at hparse
  exact Option.some.inj hparse

/-- An inbound that is saved again under its tag stays the inbound that the rules name. -/
theorem run_renamed_first :
    Run (Guarded (Watched.Edited Builtins.ascii Config.default)
        (Watched.TagStays Builtins.ascii Config.default)) watchedFresh (renamedTo "first")
      (watchAll (renamedTo "first")) := by
  -- only the last edit is of an inbound that is already there
  refine run_cons_iff.mpr ⟨_, ⟨rfl, ?_⟩, run_cons_iff.mpr ⟨_, ⟨rfl, ?_⟩,
    run_cons_iff.mpr ⟨_, ⟨rfl, ?_⟩, Run.nil⟩⟩⟩
  · intro fresh data i t he
    simp at he
  · intro fresh data i t he
    simp at he
  · intro fresh data i t he _ old v ports hold hparse rule _ hlists
    simp only [Edit.saveInbound.injEq, Option.some.injEq] at he
    obtain ⟨rfl, rfl, rfl⟩ := he
    have htag : ((watchAll ((renamedTo "first").take 2)).store.inbounds.get? 1).map Inbound.tag =
        some "first" := by decide +kernel
    rw [show (watchAll ((renamedTo "first").take 2)).store.inbounds.get? 1 = some old from hold]
      at htag
    rw [parse_plainInbound hparse, ← Option.some.inj htag]
    exact hlists

/-- From the default sections, the rule goes on naming the inbound that is saved again. -/
theorem references_kept_fresh :
    (watchAll (renamedTo "first")).named = [[1]] ∧
      (Linked (watchAll (renamedTo "first")).store ∧
        ∀ value, ReachesChains Builtins.ascii Config.default value →
          (RejectedForChaining Builtins.ascii Config.default (watchAll (renamedTo "first")).store
              value ↔
            ¬ (ChainsClosed value ∧ Acyclic (chainNext value)))) ∧
        (watchAll (renamedTo "first")).NamesKept := by
  have hkept := @references_kept Builtins.ascii Config.default _ accepted_fresh
  exact ⟨by decide +kernel, hkept.1 _ _ run_renamed_first.of_guarded,
    hkept.2 _ _ run_renamed_first⟩

/-- The inbound that the rule was written for, its tag after it was renamed, and whether the rule
lists that tag. -/
theorem watchAll_second :
    (watchAll (renamedTo "second")).named = [[1]] ∧
      ((watchAll (renamedTo "second")).store.inbounds.get? 1).map Inbound.tag = some "second" ∧
      ((watchAll (renamedTo "second")).store.routing.itemsAt "rules").map
        (listsInbound · "second") = [false] := by
  decide +kernel

/-- A renamed inbound is accepted, and the rule goes on naming the old tag. -/
theorem renamed_inbound_unnamed :
    Run (Watched.Edited Builtins.ascii Config.default) watchedFresh (renamedTo "second")
      (watchAll (renamedTo "second")) ∧ ¬ (watchAll (renamedTo "second")).NamesKept := by
  refine ⟨run_watchAll _, fun hkept => ?_⟩
  obtain ⟨hnamed, htag, hlists⟩ := watchAll_second
  obtain ⟨v, hv, hvtag⟩ := Option.map_eq_some_iff.mp htag
  have hall := hkept.names
  rw [hnamed] at hall
  cases hrules : (watchAll (renamedTo "second")).store.routing.itemsAt "rules" with
  | nil => simp [hrules] at hlists
  | cons rule rules =>
      rw [hrules] at hall hlists
      cases hall with
      | cons hrule _ =>
          have hlisted := hrule 1 (List.mem_singleton_self 1) v hv
          rw [hvtag] at hlisted
          simp [hlisted] at hlists

end Core
end DarkXray
