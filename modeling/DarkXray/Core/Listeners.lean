import DarkXray.Core.BuildConfig
import DarkXray.Library.Runs

/-!
# Listeners beside each other

The editor of the inbounds compares every row with every other one, whichever was edited
last, so the ports of the generated listeners never collide.  Their tags can: the tag of a
tunnel listener is generated, and nothing keeps a row from carrying it.

Main results:

- Theorem {lit}`Separated.edited`: every edit keeps the rows apart from each other.
- Theorem {lit}`Separated.ports_nodup`: the ports of the listeners are pairwise distinct.
- Theorem {lit}`Separated.tags_nodup`: their tags are, as long as no row carries the tag of a
  tunnel listener.
- Theorem {lit}`listeners_never_collide`: the listeners collide for no clients exactly if no
  deployed row carries the tag of a tunnel listener.
-/

namespace DarkXray
namespace Core

open Library

/-! ## The rows -/

/-- The rows of the inbounds are checked and apart from each other. -/
structure Separated (cfg : Config) (s : CoreStore) : Prop where
  fresh : ∀ i v, s.inbounds.get? i = some v → i < s.nextId
  parsed : ∀ i v, s.inbounds.get? i = some v → ∃ ports, Parsed cfg v ports
  apart : ∀ i j v r, s.inbounds.get? i = some v → s.inbounds.get? j = some r → i ≠ j →
    Apart v r

namespace Separated

variable {py : Builtins} {cfg : Config} {s t : CoreStore}

/-- A store without rows. -/
theorem of_empty (h : s.inbounds = Table.empty) : Separated cfg s where
  fresh := fun i v hv => by simp [h] at hv
  parsed := fun i v hv => by simp [h] at hv
  apart := fun i j v r hv => by simp [h] at hv

/-- Only the rows and the next id matter. -/
theorem congr (h : Separated cfg s) (hrows : t.inbounds = s.inbounds)
    (hnext : t.nextId = s.nextId) : Separated cfg t where
  fresh := fun i v hv => by
    rw [hnext]
    exact h.fresh i v (hrows ▸ hv)
  parsed := fun i v hv => h.parsed i v (hrows ▸ hv)
  apart := fun i j v r hv hr => h.apart i j v r (hrows ▸ hv) (hrows ▸ hr)

/-- A new row that is apart from all others. -/
theorem insert (h : Separated cfg s) {v : Inbound} {ports : List (String × Port)}
    (hv : Parsed cfg v ports) (hapart : ∀ j r, s.inbounds.get? j = some r → Apart v r) :
    Separated cfg (s.putInbound v none) := by
  have hnew : s.inbounds.get? s.nextId = none := by
    cases hrow : s.inbounds.get? s.nextId with
    | none => rfl
    | some r => exact absurd (h.fresh _ r hrow) (Nat.lt_irrefl _)
  have hget : ∀ i, (s.putInbound v none).inbounds.get? i =
      if i = s.nextId then some v else s.inbounds.get? i := fun i =>
    Table.get?_insert hnew v i
  constructor
  · intro i r hr
    have hnext : (s.putInbound v none).nextId = s.nextId + 1 := rfl
    rw [hget] at hr
    by_cases hi : i = s.nextId
    · omega
    · have hlt := h.fresh i r (by simpa [hi] using hr)
      omega
  · intro i r hr
    rw [hget] at hr
    by_cases hi : i = s.nextId
    · have hrv : v = r := by simpa [hi] using hr
      exact ⟨ports, hrv ▸ hv⟩
    · exact h.parsed i r (by simpa [hi] using hr)
  · intro i j r q hr hq hne
    rw [hget] at hr hq
    by_cases hi : i = s.nextId
    · have hj : j ≠ s.nextId := fun heq => hne (hi.trans heq.symm)
      have hrv : v = r := by simpa [hi] using hr
      exact hrv ▸ hapart j q (by simpa [hj] using hq)
    · by_cases hj : j = s.nextId
      · have hqv : v = q := by simpa [hj] using hq
        exact hqv ▸ (hapart i r (by simpa [hi] using hr)).symm
      · exact h.apart i j r q (by simpa [hi] using hr) (by simpa [hj] using hq) hne

/-- An edited row that is apart from all others. -/
theorem replace (h : Separated cfg s) {v : Inbound} {ports : List (String × Port)} {k : ℕ}
    (hv : Parsed cfg v ports)
    (hapart : ∀ j r, s.inbounds.get? j = some r → k ≠ j → Apart v r) :
    Separated cfg (s.putInbound v (some k)) := by
  have hget : ∀ i, (s.putInbound v (some k)).inbounds.get? i =
      if i = k then (s.inbounds.get? i).map (fun _ => v) else s.inbounds.get? i := fun i =>
    Table.get?_update s.inbounds k (fun _ => v) i
  have hold : ∀ i r, (s.putInbound v (some k)).inbounds.get? i = some r →
      (i = k ∧ v = r ∧ ∃ old, s.inbounds.get? k = some old) ∨
        (i ≠ k ∧ s.inbounds.get? i = some r) := by
    intro i r hr
    rw [hget] at hr
    by_cases hi : i = k
    · subst hi
      rw [if_pos rfl] at hr
      obtain ⟨old, hrow, hrv⟩ := Option.map_eq_some_iff.mp hr
      exact Or.inl ⟨rfl, hrv, old, hrow⟩
    · exact Or.inr ⟨hi, by simpa [hi] using hr⟩
  constructor
  · intro i r hr
    have hnext : (s.putInbound v (some k)).nextId = s.nextId := rfl
    rw [hnext]
    rcases hold i r hr with ⟨hi, _, old, hrow⟩ | ⟨_, hrow⟩
    · exact hi ▸ h.fresh k old hrow
    · exact h.fresh i r hrow
  · intro i r hr
    rcases hold i r hr with ⟨_, hrv, _⟩ | ⟨_, hrow⟩
    · exact ⟨ports, hrv ▸ hv⟩
    · exact h.parsed i r hrow
  · intro i j r q hr hq hne
    rcases hold i r hr with ⟨hi, hrv, _⟩ | ⟨hi, hrow⟩
    · rcases hold j q hq with ⟨hj, _⟩ | ⟨hj, hrow'⟩
      · exact absurd (hi.trans hj.symm) hne
      · exact hrv ▸ hapart j q hrow' (Ne.symm hj)
    · rcases hold j q hq with ⟨_, hqv, _⟩ | ⟨_, hrow'⟩
      · exact hqv ▸ (hapart i r hrow (Ne.symm hi)).symm
      · exact h.apart i j r q hrow hrow' hne

/-- A row is deleted. -/
theorem delete (h : Separated cfg s) (k : ℕ) :
    Separated cfg { s with inbounds := s.inbounds.erase k } := by
  have hold : ∀ i r, (s.inbounds.erase k).get? i = some r → s.inbounds.get? i = some r := by
    intro i r hr
    rw [Table.get?_erase] at hr
    by_cases hi : i = k
    · simp [hi] at hr
    · simpa [hi] using hr
  exact {
    fresh := fun i r hr => h.fresh i r (hold i r hr)
    parsed := fun i r hr => h.parsed i r (hold i r hr)
    apart := fun i j r q hr hq => h.apart i j r q (hold i r hr) (hold j q hq) }

/-- Every edit keeps the rows apart from each other. -/
theorem edited {e : Edit} (h : Separated cfg s) (hstep : Edited py cfg s e t) :
    Separated cfg t := by
  rcases hstep.cases with rfl | hok
  · exact h
  · cases e with
    | saveSection name value =>
        obtain ⟨hrows, hnext⟩ := saveSection_inbounds hok
        exact h.congr hrows hnext
    | saveInbound fresh data i =>
        obtain ⟨v, ports, hparse, _, hapart, rfl⟩ := saveInbound_ok hok
        have hv := parseInbound_parsed hparse
        cases i with
        | none => exact h.insert hv fun j r hr => hapart j r hr (by simp)
        | some k =>
            exact h.replace hv fun j r hr hne => hapart j r hr fun heq => hne (by simpa using heq)
    | deleteInbound i =>
        obtain ⟨_, rfl⟩ := deleteInbound_ok hok
        exact h.delete i
    | setClients clients managed =>
        have ht : { s with clients, managed } = t := Except.ok.inj hok
        exact h.congr (ht ▸ rfl) (ht ▸ rfl)

/-- The local tunnel port of a row is neither its own port nor protected. -/
theorem tunnel (h : Separated cfg s) {i : ℕ} {v : Inbound} {p : Port}
    (hv : s.inbounds.get? i = some v) (hp : localPort v.panelMeta = some p) :
    p ≠ v.port ∧ p.number ∉ cfg.protectedPorts := by
  obtain ⟨ports, hparsed⟩ := h.parsed i v hv
  exact hparsed.tunnel _ (hparsed.mem_local hp)

end Separated

/-! ## The keys of the listeners -/

/-- The ports of the listeners of a row. -/
def rowPorts (_ : ℕ) (r : Inbound) : List Port :=
  if r.deployed then r.port :: (localPort r.panelMeta).toList else []

/-- The tags of the listeners of a row. -/
def rowTags (id : ℕ) (r : Inbound) : List String :=
  if r.deployed then r.tag :: ((localPort r.panelMeta).map (tunnelTag id)).toList else []

/-- The listeners come from the rows, in their order. -/
theorem listeners_sublist {β : Type} {s : CoreStore} {parts : List (Listener × Option Listener)}
    (key : Listener → β) (rowKeys : ℕ → Inbound → List β)
    (hkey : ∀ i r users, r.deployed = true →
      (primaryListener r users :: ((localPort r.panelMeta).map
        (shadowListener i (primaryListener r users))).toList).map key = rowKeys i r)
    (h : buildInbounds s = .ok parts) :
    ((listeners parts).map key).Sublist
      (s.inbounds.rows.flatMap fun row => rowKeys row.1 row.2) := by
  simp only [buildInbounds, except_bind_ok_iff, except_pure_ok_iff] at h
  obtain ⟨all, hall, rfl⟩ := h
  have hrows := except_mapM_ok_iff.mp hall
  clear hall
  generalize s.inbounds.rows = rows at hrows ⊢
  induction hrows with
  | nil => simp [listeners]
  | cons hrow _ ih =>
      rename_i row part rows all _
      rw [List.flatMap_cons]
      rcases rowListeners_ok hrow with rfl | ⟨hdeployed, users, rfl⟩
      · exact ih.trans (List.sublist_append_right _ _)
      · have hmap := hkey row.1 row.2 users hdeployed
        have hcons : ∀ (part : Listener × Option Listener) rest,
            (listeners (part :: rest)).map key =
              (part.1 :: part.2.toList).map key ++ (listeners rest).map key := by
          intro part rest
          simp [listeners]
        have hhead : (some (primaryListener row.2 users, (localPort row.2.panelMeta).map
            (shadowListener row.1 (primaryListener row.2 users))) :: all).filterMap
              (fun part => part) =
            (primaryListener row.2 users, (localPort row.2.panelMeta).map
              (shadowListener row.1 (primaryListener row.2 users))) ::
              all.filterMap fun part => part := rfl
        rw [hhead, hcons, hmap]
        exact (List.Sublist.refl _).append ih

/-- Keys of all rows are distinct if those of each row and of any two rows are. -/
theorem rows_nodup {β : Type} (rows : Table ℕ Inbound) (rowKeys : ℕ → Inbound → List β)
    (hrow : ∀ i r, rows.get? i = some r → (rowKeys i r).Nodup)
    (hapart : ∀ i j r q, rows.get? i = some r → rows.get? j = some q → i ≠ j →
      ∀ a ∈ rowKeys i r, a ∉ rowKeys j q) :
    (rows.rows.flatMap fun row => rowKeys row.1 row.2).Nodup := by
  rw [List.nodup_flatMap]
  constructor
  · intro row hmem
    exact hrow row.1 row.2 (Table.get?_eq_some_iff.mpr hmem)
  · have hkeys : rows.rows.Pairwise fun a b => a.1 ≠ b.1 := List.pairwise_map.mp rows.nodupKeys
    refine hkeys.imp_of_mem fun {a b} ha hb hne => ?_
    intro x hxa hxb
    exact hapart a.1 b.1 a.2 b.2 (Table.get?_eq_some_iff.mpr ha)
      (Table.get?_eq_some_iff.mpr hb) hne x hxa hxb

theorem mem_rowPorts {i : ℕ} {r : Inbound} {p : Port} (h : p ∈ rowPorts i r) :
    r.deployed = true ∧ (p = r.port ∨ localPort r.panelMeta = some p) := by
  unfold rowPorts at h
  by_cases hd : r.deployed = true
  · simp only [hd, if_true, List.mem_cons, Option.mem_toList] at h
    exact ⟨hd, h⟩
  · simp [hd] at h

theorem mem_rowTags {i : ℕ} {r : Inbound} {tag : String} (h : tag ∈ rowTags i r) :
    r.deployed = true ∧
      (tag = r.tag ∨ ∃ p, localPort r.panelMeta = some p ∧ tag = tunnelTag i p) := by
  unfold rowTags at h
  by_cases hd : r.deployed = true
  · simp only [hd, if_true, List.mem_cons, Option.mem_toList, Option.map_eq_some_iff] at h
    rcases h with h | ⟨p, hp, htag⟩
    · exact ⟨hd, Or.inl h⟩
    · exact ⟨hd, Or.inr ⟨p, hp, htag.symm⟩⟩
  · simp [hd] at h

theorem Inbound.deployed_local {r : Inbound} (h : r.deployed = true) :
    deployLocal r.panelMeta = true := by
  unfold Inbound.deployed at h
  exact (Bool.and_eq_true_iff.mp h).2

/-- The ports of all rows are distinct. -/
theorem Separated.ports_nodup {cfg : Config} {s : CoreStore} (h : Separated cfg s) :
    (s.inbounds.rows.flatMap fun row => rowPorts row.1 row.2).Nodup := by
  apply rows_nodup
  · intro i r hr
    unfold rowPorts
    by_cases hd : r.deployed = true
    · cases hp : localPort r.panelMeta with
      | none => simp [hd]
      | some p =>
          have hne := (h.tunnel hr hp).1
          simp [hd, Ne.symm hne]
    · simp [hd]
  · intro i j r q hr hq hne p hp hp'
    have hapart := h.apart i j r q hr hq hne
    obtain ⟨hdr, hpr⟩ := mem_rowPorts hp
    obtain ⟨hdq, hpq⟩ := mem_rowPorts hp'
    have hlr := Inbound.deployed_local hdr
    have hlq := Inbound.deployed_local hdq
    rcases hpr with hpr | hpr
    · rcases hpq with hpq | hpq
      · exact hapart.port (hpr.symm.trans hpq)
      · exact hapart.there p hpq hlr hpr.symm
    · rcases hpq with hpq | hpq
      · exact hapart.here p hpr hlq hpq.symm
      · exact hapart.tunnel p hpr hpq

/-- No deployed row carries the tag of a tunnel listener. -/
def TunnelTagsFree (s : CoreStore) : Prop :=
  ∀ i r j q p, s.inbounds.get? i = some r → s.inbounds.get? j = some q → r.deployed = true →
    q.deployed = true → localPort q.panelMeta = some p → r.tag ≠ tunnelTag j p

/-- The tags of all rows are distinct as long as no row carries the tag of a tunnel
listener. -/
theorem Separated.tags_nodup {cfg : Config} {s : CoreStore} (h : Separated cfg s)
    (hfree : TunnelTagsFree s) :
    (s.inbounds.rows.flatMap fun row => rowTags row.1 row.2).Nodup := by
  apply rows_nodup
  · intro i r hr
    unfold rowTags
    by_cases hd : r.deployed = true
    · cases hp : localPort r.panelMeta with
      | none => simp [hd]
      | some p =>
          have hne := hfree i r i r p hr hr hd hd hp
          simp [hd, hne]
    · simp [hd]
  · intro i j r q hr hq hne tag htag htag'
    have hapart := h.apart i j r q hr hq hne
    obtain ⟨hdr, htr⟩ := mem_rowTags htag
    obtain ⟨hdq, htq⟩ := mem_rowTags htag'
    rcases htr with htr | ⟨p, hp, htr⟩
    · rcases htq with htq | ⟨p', hp', htq⟩
      · exact hapart.tag (htr.symm.trans htq)
      · exact hfree i r j q p' hr hq hdr hdq hp' (htr.symm.trans htq)
    · rcases htq with htq | ⟨p', hp', htq⟩
      · exact hfree j q i r p hq hr hdq hdr hp (htq.symm.trans htr)
      · exact hne (tunnelTag_inj (htr.symm.trans htq))

/-! ## The generated configuration -/

/-- Listeners that can run in one process. -/
structure CollisionFree (cfg : Config) (ls : List Listener) : Prop where
  tags : (ls.map Listener.tag).Nodup
  ports : (ls.map Listener.port).Nodup
  unprotected : ∀ l ∈ ls, l.port.number ∉ cfg.protectedPorts
  unreserved : ∀ l ∈ ls, l.tag ≠ "dark-api"

/-- Every deployed row has its listeners, unless it takes accounts and has none. -/
def ListsRows (s : CoreStore) (ls : List Listener) : Prop :=
  ∀ i r, s.inbounds.get? i = some r → r.deployed = true →
    (r.protocol.accounts = true → ∃ c ∈ s.clients, c.serves i = true) →
    ∃ users, primaryListener r users ∈ ls ∧ ∀ p, localPort r.panelMeta = some p →
      shadowListener i (primaryListener r users) p ∈ ls

theorem listsRows {s : CoreStore} {parts : List (Listener × Option Listener)}
    (h : buildInbounds s = .ok parts) : ListsRows s (listeners parts) := by
  intro i r hr hdeployed husers
  simp only [buildInbounds, except_bind_ok_iff, except_pure_ok_iff] at h
  obtain ⟨all, hall, rfl⟩ := h
  obtain ⟨part, hmem, hpart⟩ := exists_of_mem_mapM_left hall (Table.get?_eq_some_iff.mp hr)
  obtain ⟨users, rfl⟩ := rowListeners_some hpart hdeployed husers
  have hlisted : (primaryListener r users, (localPort r.panelMeta).map
      (shadowListener i (primaryListener r users))) ∈ all.filterMap fun part => part :=
    List.mem_filterMap.mpr ⟨_, hmem, rfl⟩
  refine ⟨users, List.mem_flatMap.mpr ⟨_, hlisted, List.mem_cons_self⟩, fun p hp => ?_⟩
  exact List.mem_flatMap.mpr ⟨_, hlisted, List.mem_cons_of_mem _ (by simp [hp])⟩

theorem tunnelTag_unreserved (id : ℕ) (p : Port) : tunnelTag id p ≠ "dark-api" := by
  intro h
  have hlist := congrArg String.toList h
  rw [toList_tunnelTag] at hlist
  simp at hlist

/-- The listeners of rows apart from each other do not collide, as long as no row carries the
tag of a tunnel listener. -/
theorem Separated.collisionFree {cfg : Config} {s : CoreStore}
    {parts : List (Listener × Option Listener)} (h : Separated cfg s) (hfree : TunnelTagsFree s)
    (hparts : buildInbounds s = .ok parts) : CollisionFree cfg (listeners parts) := by
  have hports := listeners_sublist Listener.port rowPorts (fun i r users hd => by
    cases hp : localPort r.panelMeta <;>
      simp [rowPorts, hd, hp, primaryListener, shadowListener]) hparts
  have htags := listeners_sublist Listener.tag rowTags (fun i r users hd => by
    cases hp : localPort r.panelMeta <;>
      simp [rowTags, hd, hp, primaryListener, shadowListener]) hparts
  constructor
  · exact htags.nodup (h.tags_nodup hfree)
  · exact hports.nodup h.ports_nodup
  · intro l hl
    obtain ⟨row, hrow, hmem⟩ :=
      List.mem_flatMap.mp (hports.subset (List.mem_map_of_mem hl))
    have hget := Table.get?_eq_some_iff.mpr hrow
    obtain ⟨_, hport | hport⟩ := mem_rowPorts hmem
    · obtain ⟨ports, hparsed⟩ := h.parsed _ _ hget
      exact hport ▸ hparsed.port
    · exact (h.tunnel hget hport).2
  · intro l hl
    obtain ⟨row, hrow, hmem⟩ := List.mem_flatMap.mp (htags.subset (List.mem_map_of_mem hl))
    obtain ⟨_, htag | ⟨p, _, htag⟩⟩ := mem_rowTags hmem
    · obtain ⟨ports, hparsed⟩ := h.parsed _ _ (Table.get?_eq_some_iff.mpr hrow)
      exact htag ▸ hparsed.tag
    · exact htag ▸ tunnelTag_unreserved _ p

/-- A client of every row that takes accounts. -/
def accountClient (s : CoreStore) : CoreClient where
  body := .dict [("email", .str "user"), ("password", .str "secret")]
  inboundIds := (s.inbounds.rows.filter fun row => row.2.protocol.accounts).map Prod.fst

theorem accountClient_serves {s : CoreStore} {i : ℕ} {r : Inbound}
    (hr : s.inbounds.get? i = some r) :
    (accountClient s).serves i = true ↔ r.protocol.accounts = true := by
  have henabled : ((accountClient s).body.getD "enable" (.bool true)).truthy = true := rfl
  have hids : i ∈ (accountClient s).inboundIds ↔ r.protocol.accounts = true := by
    simp only [accountClient, List.mem_map, List.mem_filter]
    constructor
    · rintro ⟨row, ⟨hmem, haccounts⟩, rfl⟩
      have hrow := Table.get?_eq_some_iff.mpr hmem
      rw [hr] at hrow
      cases hrow
      exact haccounts
    · intro haccounts
      exact ⟨(i, r), ⟨Table.get?_eq_some_iff.mp hr, haccounts⟩, rfl⟩
  simp [CoreClient.serves, henabled, hids]

/-- With such a client the configuration can be built. -/
theorem buildInbounds_accountClient (s : CoreStore) :
    ∃ parts, buildInbounds { s with clients := [accountClient s] } = .ok parts := by
  have hrows : ∀ row ∈ s.inbounds.rows,
      ∃ part, rowListeners [accountClient s] row.1 row.2 = .ok part := by
    intro row hmem
    have hserves := accountClient_serves (Table.get?_eq_some_iff.mpr hmem)
    have husers : ∃ users, usersOf [accountClient s] row.1 row.2 = .ok users := by
      by_cases haccounts : row.2.protocol.accounts = true
      · have hfilter : [accountClient s].filter (·.serves row.1) = [accountClient s] := by
          simp [hserves.mpr haccounts]
        unfold usersOf
        rw [hfilter]
        cases hproto : row.2.protocol <;> rw [hproto] at haccounts <;> try cases haccounts
        all_goals
          unfold userOf
          rw [hproto]
          exact ⟨_, rfl⟩
      · have hfilter : [accountClient s].filter (·.serves row.1) = [] := by
          have hnot : ¬ (accountClient s).serves row.1 = true := fun hs => haccounts (hserves.mp hs)
          simp [hnot]
        unfold usersOf
        rw [hfilter]
        exact ⟨[], rfl⟩
    obtain ⟨users, husers⟩ := husers
    unfold rowListeners
    rw [husers]
    by_cases hd : row.2.deployed = true
    · by_cases hempty : (row.2.protocol.accounts && users.isEmpty) = true
      · exact ⟨none, by simp [hd, bind, Except.bind, hempty]; rfl⟩
      · exact ⟨_, by simp only [hd, bind, Except.bind, hempty]; rfl⟩
    · exact ⟨none, by simp [hd]⟩
  obtain ⟨all, hall⟩ := exists_mapM_ok hrows
  exact ⟨all.filterMap fun part => part, by simp [buildInbounds, hall, bind, Except.bind]; rfl⟩

/-- After any edits of the inbounds, accepted or rejected, the generated listeners collide for
no clients exactly if no deployed row carries the tag of a tunnel listener. -/
theorem listeners_never_collide {py : Builtins} {cfg : Config} {s₀ s : CoreStore}
    {es : List Edit} (hempty : s₀.inbounds = Table.empty) (hrun : Run (Edited py cfg) s₀ es s) :
    (∀ clients parts, buildInbounds { s with clients } = .ok parts →
      CollisionFree cfg (listeners parts) ∧ ListsRows { s with clients } (listeners parts)) ↔
      TunnelTagsFree s := by
  have hsep : Separated cfg s :=
    hrun.invariant (Separated.of_empty hempty) fun _ _ _ h hstep => h.edited hstep
  constructor
  · intro hall i r j q p hr hq hdr hdq hp htag
    obtain ⟨parts, hparts⟩ := buildInbounds_accountClient s
    obtain ⟨hfree, hlists⟩ := hall _ _ hparts
    have hserved : ∀ {k v}, s.inbounds.get? k = some v → v.protocol.accounts = true →
        ∃ c ∈ [accountClient s], c.serves k = true := fun hv haccounts =>
      ⟨_, List.mem_singleton_self _, (accountClient_serves hv).mpr haccounts⟩
    obtain ⟨users, hprimary, _⟩ := hlists i r hr hdr (hserved hr)
    obtain ⟨users', _, hshadow⟩ := hlists j q hq hdq (hserved hq)
    -- listeners with one tag are one listener, so the ports agree as well
    have hsame := List.inj_on_of_nodup_map hfree.tags hprimary (hshadow p hp) htag
    have hport : r.port = p := congrArg Listener.port hsame
    by_cases hij : j = i
    · subst hij
      rw [hr] at hq
      cases hq
      exact (hsep.tunnel hr hp).1 hport.symm
    · exact (hsep.apart j i q r hq hr hij).here p hp (Inbound.deployed_local hdr) hport
  · intro hfree clients parts hparts
    have hsep' : Separated cfg { s with clients } := hsep.congr rfl rfl
    exact ⟨hsep'.collisionFree hfree hparts, listsRows hparts⟩

/-! ## A colliding configuration -/

/-- A submitted inbound with a local tunnel port. -/
def inboundDoc (tag : String) (port tunnel : ℤ) : Doc :=
  .dict [("protocol", .str "vless"), ("port", .int port), ("tag", .str tag),
    ("panelMeta", .dict [("tunnelPorts", .dict [("local", .int tunnel)])])]

/-- The default configuration. -/
def Config.default : Config where
  writesEnabled := true
  protectedPorts := [22, 2087, 10085]

/-- Two inbounds, the second one under the given tag. -/
def twoInbounds (tag : String) : List Edit :=
  [.saveInbound "" (inboundDoc "first" 1000 2000) none,
    .saveInbound "" (inboundDoc tag 3000 4000) none]

/-- The store after a list of edits. -/
def editAll (es : List Edit) : CoreStore :=
  es.foldl (fun s e => s.edit Builtins.ascii Config.default e) CoreStore.fresh

theorem run_editAll (es : List Edit) :
    Run (Edited Builtins.ascii Config.default) CoreStore.fresh es (editAll es) := by
  have heval : es.foldlM (fun s e => some (s.edit Builtins.ascii Config.default e))
      CoreStore.fresh = some (editAll es) := List.foldlM_pure
  exact (Run.of_eval heval).mono fun _ _ _ h => Option.some.inj h

/-- The tags of the generated listeners. -/
def builtTags (s : CoreStore) : Option (List String) :=
  (buildInbounds s).toOption.map fun parts => (listeners parts).map Listener.tag

/-- The generated listeners do not collide where the second inbound has a tag of its own. -/
theorem listeners_never_collide_second :
    builtTags (editAll (twoInbounds "second")) =
        some ["first", "dark-tunnel-1-2000", "second", "dark-tunnel-2-4000"] ∧
      ((∀ clients parts,
        buildInbounds { editAll (twoInbounds "second") with clients } = .ok parts →
          CollisionFree Config.default (listeners parts) ∧
            ListsRows { editAll (twoInbounds "second") with clients } (listeners parts)) ↔
        TunnelTagsFree (editAll (twoInbounds "second"))) :=
  ⟨by decide +kernel, listeners_never_collide rfl (run_editAll (twoInbounds "second"))⟩

/-- An inbound may carry the tag of the tunnel listener of another one: both edits are
accepted, and two listeners have that tag. -/
theorem tunnel_tag_taken :
    Run (Edited Builtins.ascii Config.default) CoreStore.fresh (twoInbounds "dark-tunnel-1-2000")
        (editAll (twoInbounds "dark-tunnel-1-2000")) ∧
      ∃ parts, buildInbounds (editAll (twoInbounds "dark-tunnel-1-2000")) = .ok parts ∧
        ¬ CollisionFree Config.default (listeners parts) := by
  refine ⟨run_editAll _, ?_⟩
  have htags : builtTags (editAll (twoInbounds "dark-tunnel-1-2000")) =
      some ["first", "dark-tunnel-1-2000", "dark-tunnel-1-2000", "dark-tunnel-2-4000"] := by
    decide +kernel
  obtain ⟨parts, hparts, hmap⟩ := Option.map_eq_some_iff.mp htags
  cases hbuilt : buildInbounds (editAll (twoInbounds "dark-tunnel-1-2000")) with
  | error fault =>
      rw [hbuilt] at hparts
      cases hparts
  | ok built =>
      rw [hbuilt] at hparts
      cases hparts
      refine ⟨_, rfl, fun hfree => ?_⟩
      have hnodup := hmap ▸ hfree.tags
      revert hnodup
      decide

end Core
end DarkXray
