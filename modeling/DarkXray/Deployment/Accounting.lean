import Mathlib.Data.List.Dedup
import DarkXray.Deployment.Payload
import DarkXray.Library.Checks
import DarkXray.Nodes.RestoreUsage

/-!
# What a configured Node reports

A Node reports the traffic of every identity that its configuration names.  The Hub takes up
the bytes of managed clients and of imported users, and withholds the accounting lease if
anything else was reported.

Main results:

- Theorem {lit}`mem_sourceEmails_iff`: the identities that a configuration names.
- Theorem {lit}`report_accepted_iff`: the lease is granted exactly if the Hub can account for
  all of them; the identity of an exit route belongs to neither ledger.
-/

namespace DarkXray
namespace Deployment

open Library Core Nodes Policy

/-! ## Identities of a configuration -/

/-- The distinct {lit}`sourceEmail`s of a payload. -/
def NodePayload.sourceEmails (p : NodePayload) : List String :=
  ((p.assignments.flatMap Bundle.clients).map Prod.fst ++
    p.clients.map NodePolicy.sourceEmail).dedup

/-- The name in the record of a client. -/
def emailOf (c : Core.CoreClient) : Option String :=
  (c.body.get? "email").bind Library.Doc.str?

/-- A client is attached to one of the inbounds. -/
def Attached (assigned : List ℕ) (c : Core.CoreClient) : Prop :=
  ∃ source ∈ assigned, source ∈ c.inboundIds

/-- An exit route puts its identity on a Node. -/
def Hub.Bridged (crypto : Crypto) (h : Hub) (nodeId : String) (assigned : List ℕ)
    (row : RelayRow) : Prop :=
  row.phase ≠ .deleting ∧ row.exitNode = nodeId ∧ row.exitInbound ∈ assigned ∧
    (relayDestination (h.estate crypto) row.exitNode row.exitInbound).isOk = true

/-- The identities that the tables put on a Node. -/
def Hub.Serves (crypto : Crypto) (h : Hub) (nodeId : String) (e : String) : Prop :=
  ∃ node, h.nodes.get? nodeId = some node ∧
    ((∃ c ∈ h.clients, Attached node.inboundIds c ∧ emailOf c = some e) ∨
      ∃ r ∈ h.relays.rows, h.Bridged crypto nodeId node.inboundIds r.2 ∧ r.2.identity = e)

section Identities

variable {py : Builtins} {crypto : Crypto} {cfg : Config} {h : Hub} {nodeId e : String}

/-- An identity occurs in the bundles. -/
def Carried (bundles : List Bundle) (e : String) : Prop :=
  ∃ b ∈ bundles, e ∈ b.clients.map Prod.fst

/-- The clients of a bundle are the Hub's clients with its inbound. -/
theorem mem_clientsOf_iff {source : ℕ} {clients : List (String × Library.Doc)}
    (hclients : clientsOf h.toCoreStore source = .ok clients) :
    e ∈ clients.map Prod.fst ↔ ∃ c ∈ h.clients, source ∈ c.inboundIds ∧ emailOf c = some e := by
  unfold clientsOf at hclients
  constructor
  · intro he
    obtain ⟨sent, hsent, rfl⟩ := List.mem_map.mp he
    obtain ⟨c, hc, hemail⟩ := exists_of_mem_mapM hclients hsent
    obtain ⟨hmem, hattached⟩ := List.mem_filter.mp hc
    refine ⟨c, hmem, of_decide_eq_true hattached, ?_⟩
    unfold emailOf
    cases hbody : (c.body.get? "email").bind Library.Doc.str? with
    | none => simp [hbody] at hemail
    | some email =>
        simp only [hbody, Except.ok.injEq] at hemail
        rw [← hemail]
  · rintro ⟨c, hmem, hattached, hbody⟩
    have hc : c ∈ h.clients.filter fun c => source ∈ c.inboundIds :=
      List.mem_filter.mpr ⟨hmem, decide_eq_true hattached⟩
    obtain ⟨sent, hsent, hemail⟩ := exists_of_mem_mapM_left hclients hc
    unfold emailOf at hbody
    simp only [hbody, Except.ok.injEq] at hemail
    exact List.mem_map.mpr ⟨sent, hsent, by rw [← hemail]⟩

/-- One assignment carries the clients of its inbound. -/
theorem bundle_ok {source : ℕ} {b : Bundle} (hb : h.bundle nodeId source = .ok b) :
    b.source = source ∧
      (e ∈ b.clients.map Prod.fst ↔
        ∃ c ∈ h.clients, source ∈ c.inboundIds ∧ emailOf c = some e) := by
  unfold Hub.bundle at hb
  simp only [except_bind_ok_iff, except_pure_ok_iff] at hb
  obtain ⟨inbound, _, clients, hclients, rfl⟩ := hb
  exact ⟨rfl, mem_clientsOf_iff hclients⟩

/-- The bundles carry the clients that are attached to one of their inbounds. -/
theorem carried_bundles {assigned : List ℕ} {bundles : List Bundle}
    (hbundles : assigned.mapM (h.bundle nodeId) = .ok bundles) :
    Carried bundles e ↔ ∃ c ∈ h.clients, Attached assigned c ∧ emailOf c = some e := by
  constructor
  · rintro ⟨b, hb, he⟩
    obtain ⟨source, hsource, hbundle⟩ := exists_of_mem_mapM hbundles hb
    obtain ⟨c, hc, hattached, hemail⟩ := (bundle_ok hbundle).2.mp he
    exact ⟨c, hc, ⟨source, hsource, hattached⟩, hemail⟩
  · rintro ⟨c, hc, ⟨source, hsource, hattached⟩, hemail⟩
    obtain ⟨b, hb, hbundle⟩ := exists_of_mem_mapM_left hbundles hsource
    exact ⟨b, hb, (bundle_ok hbundle).2.mpr ⟨c, hc, hattached, hemail⟩⟩

/-- The bundles are those of the assigned inbounds, in their order. -/
theorem sources_bundles {assigned : List ℕ} {bundles : List Bundle}
    (hbundles : assigned.mapM (h.bundle nodeId) = .ok bundles) :
    bundles.map Bundle.source = assigned := by
  induction assigned generalizing bundles with
  | nil =>
      cases hbundles
      rfl
  | cons source assigned ih =>
      rw [List.mapM_cons] at hbundles
      simp only [except_bind_ok_iff, except_pure_ok_iff] at hbundles
      obtain ⟨b, hb, rest, hrest, rfl⟩ := hbundles
      rw [List.map_cons, ih hrest, (bundle_ok (e := "") hb).1]

/-- An exit route adds its identity to the bundle of its exit. -/
theorem bridgeBundles_carried (crypto : Crypto) (h : Hub) (nodeId e : String)
    (bundles : List Bundle) (row : RelayRow) :
    (bridgeBundles crypto h nodeId bundles row).map Bundle.source = bundles.map Bundle.source ∧
      (Carried (bridgeBundles crypto h nodeId bundles row) e ↔ Carried bundles e ∨
        (h.Bridged crypto nodeId (bundles.map Bundle.source) row ∧ row.identity = e)) := by
  unfold bridgeBundles Hub.Bridged
  by_cases hskip : row.phase = .deleting ∨ row.exitNode ≠ nodeId
  · rw [if_pos hskip]
    refine ⟨rfl, (or_iff_left ?_).symm⟩
    rintro ⟨⟨hphase, hexit, _⟩, _⟩
    exact hskip.elim hphase fun hne => hne hexit
  · rw [if_neg hskip]
    rw [not_or, not_not] at hskip
    cases hdestination : relayDestination (h.estate crypto) row.exitNode row.exitInbound with
    | error message =>
        refine ⟨rfl, (or_iff_left ?_).symm⟩
        rintro ⟨⟨_, _, _, hok⟩, _⟩
        cases hok
    | ok found =>
        dsimp only
        constructor
        · rw [List.map_map]
          refine List.map_congr_left fun b _ => ?_
          by_cases hsource : b.source = row.exitInbound
          · simp [hsource]
          · simp [hsource]
        · constructor
          · rintro ⟨b', hb', he⟩
            obtain ⟨b, hb, rfl⟩ := List.mem_map.mp hb'
            by_cases hsource : b.source = row.exitInbound
            · rw [if_pos hsource, List.map_append, List.mem_append] at he
              rcases he with he | he
              · exact .inl ⟨b, hb, he⟩
              · have hidentity : e = row.identity := by simpa using he
                exact .inr ⟨⟨hskip.1, hskip.2, List.mem_map.mpr ⟨b, hb, hsource⟩, rfl⟩,
                  hidentity.symm⟩
            · rw [if_neg hsource] at he
              exact .inl ⟨b, hb, he⟩
          · rintro (⟨b, hb, he⟩ | ⟨⟨_, _, hassigned, _⟩, rfl⟩)
            · refine ⟨_, List.mem_map_of_mem hb, ?_⟩
              by_cases hsource : b.source = row.exitInbound
              · rw [if_pos hsource, List.map_append]
                exact List.mem_append_left _ he
              · rw [if_neg hsource]
                exact he
            · obtain ⟨b, hb, hsource⟩ := List.mem_map.mp hassigned
              refine ⟨_, List.mem_map_of_mem hb, ?_⟩
              rw [if_pos hsource, List.map_append]
              exact List.mem_append_right _ List.mem_cons_self

/-- All exit routes add their identities. -/
theorem bridged_carried (crypto : Crypto) (h : Hub) (nodeId e : String)
    (rows : List (Route × RelayRow)) :
    ∀ bundles : List Bundle,
      (rows.foldl (fun bundles r => bridgeBundles crypto h nodeId bundles r.2) bundles).map
          Bundle.source = bundles.map Bundle.source ∧
        (Carried (rows.foldl (fun bundles r => bridgeBundles crypto h nodeId bundles r.2) bundles) e ↔
          Carried bundles e ∨
            ∃ r ∈ rows, h.Bridged crypto nodeId (bundles.map Bundle.source) r.2 ∧
              r.2.identity = e) := by
  induction rows with
  | nil =>
      intro bundles
      simp
  | cons r rows ih =>
      intro bundles
      have hhead := bridgeBundles_carried crypto h nodeId e bundles r.2
      have htail := ih (bridgeBundles crypto h nodeId bundles r.2)
      rw [hhead.1] at htail
      refine ⟨htail.1, ?_⟩
      rw [List.foldl_cons, htail.2, hhead.2]
      simp only [List.exists_mem_cons_iff, or_assoc]

/-- Swap routes name nobody. -/
theorem updateBundle_clients (source : ℕ) (f : Inbound → Inbound) (bundles : List Bundle) :
    (updateBundle source f bundles).flatMap Bundle.clients = bundles.flatMap Bundle.clients := by
  induction bundles with
  | nil => rfl
  | cons b bundles ih =>
      rw [updateBundle]
      by_cases hsource : b.source = source
      · rw [if_pos hsource]
        rfl
      · rw [if_neg hsource, List.flatMap_cons, List.flatMap_cons, ih]

theorem enrichSwap_clients {d d' : Draft} {r : ℕ × SwapRow}
    (hd : enrichSwap cfg h nodeId d r = .ok d') :
    d'.bundles.flatMap Bundle.clients = d.bundles.flatMap Bundle.clients := by
  unfold enrichSwap at hd
  split at hd
  · obtain ⟨bundles, hbundles, hd⟩ := except_bind_ok_iff.mp hd
    cases bundles with
    | none =>
        cases hd
        rfl
    | some bundles =>
        have hexit : bundles.flatMap Bundle.clients = d.bundles.flatMap Bundle.clients := by
          unfold swapExit at hbundles
          split at hbundles
          · split at hbundles
            · split at hbundles
              · cases hbundles
              · cases hbundles
            · cases hbundles
              exact updateBundle_clients _ _ _
          · cases hbundles
            rfl
        have hingress : swapIngress cfg h nodeId r.1 r.2 { d with bundles } = .ok d' := hd
        unfold swapIngress at hingress
        split at hingress
        · simp only [except_bind_ok_iff, except_pure_ok_iff] at hingress
          obtain ⟨_, -, _, -, exit, -, _, -, rfl⟩ := hingress
          rw [List.flatMap_append, hexit]
          simp
        · cases hingress
          exact hexit
  · cases hd
    rfl

/-- Swap routes bring no clients. -/
theorem enrichSwaps_clients {d d' : Draft} (hd : h.enrichSwaps cfg nodeId d = .ok d') :
    d'.bundles.flatMap Bundle.clients = d.bundles.flatMap Bundle.clients := by
  unfold Hub.enrichSwaps at hd
  generalize h.swapRows = rows at hd
  induction rows generalizing d with
  | nil =>
      cases hd
      rfl
  | cons r rows ih =>
      rw [List.foldlM_cons] at hd
      obtain ⟨next, hnext, hd⟩ := except_bind_ok_iff.mp hd
      exact (ih hd).trans (enrichSwap_clients hnext)

/-- The limits of a payload are those of attached clients. -/
theorem mem_nodePolicies {bundles : List Bundle}
    (he : e ∈ (h.nodePolicies bundles).map NodePolicy.sourceEmail) :
    ∃ c ∈ h.clients, Attached (bundles.map Bundle.source) c ∧ emailOf c = some e := by
  obtain ⟨policy, hpolicy, rfl⟩ := List.mem_map.mp he
  obtain ⟨c, hc, hsome⟩ := List.mem_filterMap.mp hpolicy
  unfold Hub.nodePolicy at hsome
  dsimp only at hsome
  split at hsome
  · cases hsome
  · rename_i hserved
    rw [not_or, not_not, List.any_eq_true] at hserved
    obtain ⟨hnonempty, source, hsource, hassigned⟩ := hserved
    cases hsome
    refine ⟨c, hc, ⟨source, of_decide_eq_true hassigned, hsource⟩, ?_⟩
    unfold emailOf
    cases hbody : (c.body.get? "email").bind Library.Doc.str? with
    | none => simp [hbody] at hnonempty
    | some email => rfl

/-- The identities that a configuration names. -/
theorem mem_sourceEmails_iff {p : NodePayload}
    (hp : h.nodePayload py crypto cfg nodeId = .ok p) :
    e ∈ p.sourceEmails ↔ h.Serves crypto nodeId e := by
  unfold Hub.nodePayload Hub.nodeBundles at hp
  simp only [except_bind_ok_iff, except_pure_ok_iff, ensure_ok_iff] at hp
  obtain ⟨_, ⟨node, hnode, bundles, hbundles, rfl⟩, _, -, relayed, -, d, hd, rfl⟩ := hp
  have hnode : h.nodes.get? nodeId = some node := by
    unfold Hub.node at hnode
    cases hrow : h.nodes.get? nodeId with
    | none => simp [hrow] at hnode
    | some row =>
        simp only [hrow, Option.elim_some, Except.ok.injEq] at hnode
        rw [hnode]
  have hclients := enrichSwaps_clients hd
  dsimp only at hclients
  have hsources := sources_bundles hbundles
  have hbridged := bridged_carried crypto h nodeId e h.relayRows bundles
  rw [hsources, carried_bundles hbundles] at hbridged
  have hcarried : e ∈ (d.bundles.flatMap Bundle.clients).map Prod.fst ↔
      Carried (h.relayRows.foldl (fun bundles r => bridgeBundles crypto h nodeId bundles r.2)
        bundles) e := by
    rw [hclients, List.map_flatMap, List.mem_flatMap, Carried]
  have hrows : ∀ r, r ∈ h.relayRows ↔ r ∈ h.relays.rows := fun r => List.mem_insertionSort _
  have hserves : h.Serves crypto nodeId e ↔
      Carried (h.relayRows.foldl (fun bundles r => bridgeBundles crypto h nodeId bundles r.2)
        bundles) e := by
    rw [hbridged.2, Hub.Serves]
    constructor
    · rintro ⟨node', hnode', hserved⟩
      rw [hnode, Option.some.injEq] at hnode'
      subst hnode'
      simpa only [hrows] using hserved
    · intro hserved
      exact ⟨node, hnode, by simpa only [hrows] using hserved⟩
  rw [NodePayload.sourceEmails, List.mem_dedup, List.mem_append, hcarried, ← hserves]
  constructor
  · rintro (hserved | hpolicy)
    · exact hserved
    · obtain ⟨c, hc, hattached, hemail⟩ := mem_nodePolicies hpolicy
      rw [hbridged.1] at hattached
      exact ⟨node, hnode, .inl ⟨c, hc, hattached, hemail⟩⟩
  · exact .inl

end Identities

/-! ## Accepted reports -/

/-- The database of the Hub: the tables of the configurations and those of the ledgers, with
the same assignments. -/
structure Database where
  deployment : Hub
  ledgers : Ledgers
  assigned : ∀ nodeId node, deployment.nodes.get? nodeId = some node →
    ∀ source : ℕ, source ∈ node.inboundIds ↔ (source : ℤ) ∈ ledgers.hub.assigned nodeId

/-- A report has one item with valid counters for every identity of a configuration. -/
structure CompleteReport (p : NodePayload) (items : List TrafficItem) : Prop where
  emails : (reportedEmails items).Perm p.sourceEmails
  counters : ∀ item ∈ items, ∃ counters, item.counters = .ok counters

/-- Every sample of a Node is from before a time. -/
def Later (nodeId : String) (now : ℕ) (u : RestoreUsage) : Prop :=
  ∀ id row, u.get? (id, "node:" ++ nodeId) = some row → row.updatedAt < now

/-- A ledger takes up every client and every exit route of a Node; and where a live imported
user is among them, no managed client there has the name of any imported user. -/
def Database.Accountable (crypto : Crypto) (db : Database) (nodeId : String) : Prop :=
  (∀ e, db.deployment.Serves crypto nodeId e → db.ledgers.Accountable nodeId e) ∧
    ((∃ e, db.deployment.Serves crypto nodeId e ∧
      e ∈ (db.ledgers.restored nodeId).map Prod.fst) → db.ledgers.Apart nodeId)

/-- The report of a configured Node is accepted exactly if the Hub can account for all of its
identities; and whatever report is accepted names managed clients and live imported users. -/
theorem report_accepted_iff {py : Builtins} {crypto : Crypto} {cfg : Config}
    {digest : String → String} {db : Database} {nodeId : String} {p : NodePayload}
    {items : List TrafficItem} {now : ℕ} {initializeAbsent : Bool} {traffic : Snapshot × ℕ}
    {l : Ledgers} (hp : db.deployment.nodePayload py crypto cfg nodeId = .ok p)
    (hreport : CompleteReport p items) (hlater : Later nodeId now db.ledgers.restore.usage)
    (himport : observed digest nodeId items now initializeAbsent db.ledgers = (.ok traffic, l)) :
    (requireAccountedSnapshot nodeId traffic l = (.ok (), l) ↔ db.Accountable crypto nodeId) ∧
      ∀ (before after : Ledgers) (report : List TrafficItem) (at' : ℕ) (seeds : Bool)
        (outcome : Snapshot × ℕ), observed digest nodeId report at' seeds before = (.ok outcome, after) →
          requireAccountedSnapshot nodeId outcome after = (.ok (), after) →
            ∀ e ∈ reportedEmails report, before.Accountable nodeId e := by
  constructor
  · have hlatest : Latest nodeId now db.ledgers.restore.usage :=
      fun id row hrow => le_of_lt (hlater id row hrow)
    have hmem : ∀ e, e ∈ reportedEmails items ↔ db.deployment.Serves crypto nodeId e :=
      fun e => hreport.emails.mem_iff.trans (mem_sourceEmails_iff hp)
    rw [accounted_iff himport hlatest, Database.Accountable]
    simp only [hmem]
  · intro before after report at' seeds outcome houtcome haccepted
    exact accountable_of_accepted houtcome haccepted

/-! ## An exit -/

/-- An inbound that exit routes can lead to. -/
def realityInbound : Inbound where
  remark := "exit"
  protocol := .vless
  listen := .str "0.0.0.0"
  port := ⟨443, https_inRange⟩
  enable := true
  tag := "exit"
  settings := .dict [("decryption", .str "none")]
  streamSettings := .dict [("network", .str "tcp"), ("security", .str "reality"),
    ("realitySettings", .dict [("privateKey", .str "key"), ("serverNames", .list [.str "sni"]),
      ("shortIds", .list [.str "01"])])]
  sniffing := .dict []
  panelMeta := .dict []

/-- A managed client that is attached to the inbound of a Node, and the exit routes there. -/
def servedNode (relays : Table Route RelayRow) : Database where
  deployment := {
    toCoreStore := { CoreStore.fresh with
      inbounds := Table.empty.insert 1 realityInbound
      clients := [⟨.dict [("email", .str "alice"), ("id", .str "u")], [1]⟩] }
    matrix := Table.empty
    limits := Table.empty
    nodes := Table.empty.insert "N" ⟨⟨"https://n.example:8443", 8443⟩, true, "n.example", [1]⟩
    swaps := Table.empty
    nextSwap := 1
    relays := relays
    warps := fun _ => none }
  ledgers := {
    hub := {
      nodeInbounds := [⟨"N", 1, 1⟩]
      managedClients := Table.empty.insert "alice" ⟨some [1], false, 0, 0⟩
      clients := Table.empty.insert "alice" ⟨"owner", 0⟩
      periods := Table.empty.insert "owner" 1
      usage := Table.empty
      trafficLedger := Table.empty }
    restore := ⟨Table.empty, Table.empty⟩ }
  assigned := by
    intro nodeId node hnode source
    rw [Table.get?_insert (Table.get?_empty _)] at hnode
    by_cases hid : nodeId = "N"
    · rw [if_pos hid, Option.some.injEq] at hnode
      subst hnode
      subst hid
      simp only [Hub.assigned, decide_true, List.filter_cons_of_pos, List.filter_nil, List.map_cons,
        List.map_nil, List.mem_singleton]
      omega
    · rw [if_neg hid, Table.get?_empty] at hnode
      cases hnode

/-- Names instead of hashes. -/
def namedCrypto : Crypto where
  digest := fun _ s => s
  publicKey := some

/-- An exit route from another Node to this one. -/
def exitRoute : Table Route RelayRow :=
  Table.empty.insert ("S", 2) ⟨"N", 1, "_dark_relay.0", "credential", true, .enabled⟩

/-- The configuration of the Node. -/
def servedPayload (relays : Table Route RelayRow) : Except String NodePayload :=
  (servedNode relays).deployment.nodePayload Builtins.ascii namedCrypto ⟨true, []⟩ "N"

/-- A report of the same counters for all. -/
def reportOf (emails : List String) : List TrafficItem :=
  emails.map fun e => .item (.str e) (.int 5) (.int 7)

theorem reportOf_complete {p : NodePayload} {emails : List String} (h : p.sourceEmails = emails) :
    CompleteReport p (reportOf emails) := by
  constructor
  · rw [h, reportOf, reportedEmails, List.filterMap_map]
    have hsource : ((fun item : TrafficItem => item.source.toOption) ∘
        fun e => TrafficItem.item (.str e) (.int 5) (.int 7)) = some := rfl
    rw [hsource, List.filterMap_some]
  · intro item hitem
    obtain ⟨e, _, rfl⟩ := List.mem_map.mp hitem
    exact ⟨(5, 7), rfl⟩

theorem report_accepted_managed :
    ∃ p traffic l, servedPayload Table.empty = .ok p ∧
      observed id "N" (reportOf ["alice"]) 10 true (servedNode Table.empty).ledgers =
        (.ok traffic, l) ∧
      requireAccountedSnapshot "N" traffic l = (.ok (), l) := by
  have hnames : (servedPayload Table.empty).toOption.map NodePayload.sourceEmails =
      some ["alice"] := by decide +kernel
  have hran : (observed id "N" (reportOf ["alice"]) 10 true
      (servedNode Table.empty).ledgers).1.toOption.isSome = true := by decide +kernel
  have hmanaged : "alice" ∈ (servedNode Table.empty).ledgers.hub.allowedTrafficClients "N" := by
    decide +kernel
  have hrestored : ((servedNode Table.empty).ledgers.restored "N").map Prod.fst = [] := by
    decide +kernel
  cases hp : servedPayload Table.empty with
  | error e => simp [hp, Except.toOption] at hnames
  | ok p =>
      rcases himport : observed id "N" (reportOf ["alice"]) 10 true
        (servedNode Table.empty).ledgers with ⟨e | traffic, l⟩
      · simp [himport, Except.toOption] at hran
      · simp only [hp, Except.toOption, Option.map_some, Option.some.injEq] at hnames
        have hlater : Later "N" 10 (servedNode Table.empty).ledgers.restore.usage := by
          intro id row hrow
          cases hrow
        refine ⟨p, traffic, l, rfl, rfl,
          (report_accepted_iff hp (reportOf_complete hnames) hlater himport).1.mpr ⟨?_, ?_⟩⟩
        · intro e hserved
          have he := (mem_sourceEmails_iff hp).mpr hserved
          rw [hnames, List.mem_singleton] at he
          exact .inl (he ▸ hmanaged)
        · rintro ⟨e, _, he⟩
          rw [hrestored] at he
          cases he

/-- The identity of an exit route is in neither ledger. -/
theorem exit_refused :
    ∃ p traffic l, servedPayload exitRoute = .ok p ∧
      CompleteReport p (reportOf ["_dark_relay.0", "alice"]) ∧
      Later "N" 10 (servedNode exitRoute).ledgers.restore.usage ∧
      observed id "N" (reportOf ["_dark_relay.0", "alice"]) 10 true (servedNode exitRoute).ledgers =
        (.ok traffic, l) ∧
      requireAccountedSnapshot "N" traffic l = (.error (.policyError
        "Accounting lease refused: Node reports unmanaged traffic identities"), l) := by
  have hnames : (servedPayload exitRoute).toOption.map NodePayload.sourceEmails =
      some ["_dark_relay.0", "alice"] := by decide +kernel
  have hcounts : ((observed id "N" (reportOf ["_dark_relay.0", "alice"]) 10 true
      (servedNode exitRoute).ledgers).1.toOption.map fun t => (t.1.ignoredClients, t.2)) =
        some (1, 0) := by decide +kernel
  cases hp : servedPayload exitRoute with
  | error e => simp [hp, Except.toOption] at hnames
  | ok p =>
      rcases himport : observed id "N" (reportOf ["_dark_relay.0", "alice"]) 10 true
        (servedNode exitRoute).ledgers with ⟨e | traffic, l⟩
      · simp [himport, Except.toOption] at hcounts
      · simp only [hp, Except.toOption, Option.map_some, Option.some.injEq] at hnames
        simp only [himport, Except.toOption, Option.map_some, Option.some.injEq, Prod.mk.injEq]
          at hcounts
        refine ⟨p, traffic, l, rfl, reportOf_complete hnames, ?_, rfl, ?_⟩
        · intro id row hrow
          cases hrow
        · rw [requireAccountedSnapshot, Tx.bind_apply, demandPolicy, Tx.require, hcounts.1, hcounts.2]
          rfl

end Deployment
end DarkXray
