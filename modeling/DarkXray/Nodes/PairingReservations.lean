import DarkXray.Nodes.PairingRuns

/-!
# Reservations of pending enrollments

While an enrollment is pending, no other enrollment, Node or replacement may have its Node
id, its endpoint or its installation.  Every transaction of the enrollment checks this, and
triggers check it for the transactions of the registry.  Nothing that happens in between
breaks it, and so a Node whose candidate is verified can always be registered.

Main results:

- Theorem {lit}`steady_script`: every action of the enrollment keeps the reservations.
- Theorem {lit}`reserved_happen`: so does everything that happens around it.
- Theorem {lit}`Reserved.finish`: the last transaction of an enrollment returns.
- Theorem {lit}`pairing_reservation_holds`: both hold over every run.
-/

namespace DarkXray
namespace Nodes
namespace Pairing

open Library

/-! ## What is reserved -/

/-- A check of all rows, by the keys. -/
theorem all_rows_iff {ρ : Type} {t : Table String ρ} {p : String × ρ → Bool} :
    t.rows.all p = true ↔ ∀ k r, t.get? k = some r → p (k, r) = true := by
  rw [List.all_eq_true]
  constructor
  · exact fun h k r hr => h (k, r) (Table.get?_eq_some_iff.mp hr)
  · exact fun h x hx => h x.1 x.2 (Table.get?_eq_some_iff.mpr hx)

/-- A search that finds no row, by the keys. -/
theorem any_rows_iff {ρ : Type} {t : Table String ρ} {p : String × ρ → Bool} :
    t.rows.any p = false ↔ ∀ k r, t.get? k = some r → p (k, r) = false := by
  rw [← Bool.not_eq_true', List.not_any_eq_all_not, all_rows_iff]
  simp only [Bool.not_eq_true']

/-- An id, an endpoint and an installation that are free outside of the enrollments. -/
structure Free (s : Site) (nodeId origin installationId : String) : Prop where
  nodes : ∀ n node, s.nodes.get? n = some node → n ≠ nodeId ∧ node.origin ≠ origin
  known : installationId ≠ "" → ∀ i b, s.installations.get? i = some b →
    b.installationId ≠ installationId
  targets : ∀ k t, s.replacements.get? k = some t →
    t.1 ≠ origin ∧ (installationId ≠ "" → t.2 ≠ installationId)

/-- Two enrollments that reserve nothing in common. -/
structure Row.Apart (r r' : Row) : Prop where
  nodeId : r.nodeId ≠ r'.nodeId
  origin : r.origin ≠ r'.origin
  installation : r.installationId ≠ "" → r.installationId ≠ r'.installationId

/-- Pending enrollments are apart from each other, and from all that is registered. -/
structure Reserved (s : Site) : Prop where
  attempt : ∀ a r, s.pairings.get? a = some r → hex32 a = true
  apart : ∀ a r a' r', s.pairings.get? a = some r → s.pairings.get? a' = some r' → a ≠ a' →
    r.Apart r'
  free : ∀ a r, s.pairings.get? a = some r → Free s r.nodeId r.origin r.installationId
  active : ∀ i b, s.installations.get? i = some b → b.retired = false →
    ∃ node, s.nodes.get? b.nodeId = some node

/-- Being apart is symmetric. -/
theorem Row.Apart.symm {r r' : Row} (h : r.Apart r') : r'.Apart r where
  nodeId := h.nodeId.symm
  origin := h.origin.symm
  installation hsome heq := h.installation (heq ▸ hsome) heq.symm

section Tables

variable {s t : Site} {a nodeId origin installationId : String} {row : Row} {chance : Chance}

/-- No pairing reserves a Node or its origin. -/
theorem reservesNode_iff :
    s.reservesNode nodeId origin = false ↔
      ∀ a r, s.pairings.get? a = some r → r.nodeId ≠ nodeId ∧ r.origin ≠ origin := by
  rw [Site.reservesNode, any_rows_iff]
  simp only [Bool.or_eq_false_iff, decide_eq_false_iff_not, ne_eq]

/-- No pairing reserves an installation. -/
theorem reservesInstallation_iff :
    s.reservesInstallation installationId = false ↔ (installationId ≠ "" →
      ∀ a r, s.pairings.get? a = some r → r.installationId ≠ installationId) := by
  rw [Site.reservesInstallation, Bool.and_eq_false_imp, any_rows_iff]
  simp only [ne_eq, decide_not, Bool.not_eq_true', decide_eq_false_iff_not]

/-- No pairing reserves an origin or its installation. -/
theorem reservesTarget_iff :
    s.reservesTarget origin installationId = false ↔
      ∀ a r, s.pairings.get? a = some r →
        r.origin ≠ origin ∧ (installationId ≠ "" → r.installationId ≠ installationId) := by
  rw [Site.reservesTarget, any_rows_iff]
  simp only [Bool.or_eq_false_iff, Bool.and_eq_false_imp, decide_eq_false_iff_not,
    decide_eq_true_eq, ne_eq]

/-- What is available is free of reservations. -/
theorem available_spec :
    (available nodeId origin installationId).wp
      (fun _ t => t = s ∧ Free s nodeId origin installationId) (fun _ t => t = s) s := by
  simp only [available, Tx.wp_bind, Tx.wp_read, Tx.wp_require, id_eq]
  refine ⟨fun hnodes => ⟨fun hknown => ⟨fun htargets => ⟨trivial, ?_, fun hsome => ?_, ?_⟩,
    fun _ => trivial⟩, fun _ => trivial⟩, fun _ => trivial⟩
  · rw [all_rows_iff] at hnodes
    simpa using hnodes
  · have hother := hknown.resolve_left hsome
    rw [all_rows_iff] at hother
    simpa using hother
  · rw [all_rows_iff] at htargets
    simpa [or_iff_not_imp_left] using htargets

/-- Nothing stands in the way of a saved enrollment. -/
theorem Free.wp_available {q : Unit → Site → Prop} {r : PairError → Site → Prop}
    (h : Free s nodeId origin installationId) (hq : q () s) :
    (available nodeId origin installationId).wp q r s := by
  have hnodes : s.nodes.rows.all (fun n => !(n.1 = nodeId || n.2.origin = origin)) = true := by
    rw [all_rows_iff]
    simpa using h.nodes
  have hknown : installationId = "" ∨
      s.installations.rows.all (fun i => i.2.installationId ≠ installationId) = true := by
    by_cases hsome : installationId = ""
    · exact .inl hsome
    · right
      rw [all_rows_iff]
      simpa using h.known hsome
  have htargets : s.replacements.rows.all (fun t =>
      !(t.2.1 = origin || (installationId ≠ "" && t.2.2 = installationId))) = true := by
    rw [all_rows_iff]
    simpa [or_iff_not_imp_left] using h.targets
  simp only [available, Tx.wp_bind, Tx.wp_read, Tx.wp_require, id_eq]
  exact ⟨fun _ => ⟨fun _ => ⟨fun _ => hq, absurd htargets⟩, absurd hknown⟩, absurd hnodes⟩

/-! ### Changes of the registry -/

/-- The registry changes, and takes nothing that is reserved. -/
theorem Reserved.registry (h : Reserved s) (hp : t.pairings = s.pairings)
    (hnodes : ∀ n node, t.nodes.get? n = some node →
      s.nodes.get? n = some node ∨ s.reservesNode n node.origin = false)
    (hinstallations : ∀ i b, t.installations.get? i = some b →
      (∃ b', s.installations.get? i = some b' ∧ b'.installationId = b.installationId) ∨
        s.reservesInstallation b.installationId = false)
    (htargets : ∀ k x, t.replacements.get? k = some x →
      s.replacements.get? k = some x ∨ s.reservesTarget x.1 x.2 = false)
    (hactive : ∀ i b, t.installations.get? i = some b → b.retired = false →
      ∃ node, t.nodes.get? b.nodeId = some node) : Reserved t := by
  refine ⟨hp ▸ h.attempt, hp ▸ h.apart, fun a r hget => ?_, hactive⟩
  rw [hp] at hget
  have hfree := h.free a r hget
  refine ⟨fun n node hn => ?_, fun hsome i b hb => ?_, fun k x hx => ?_⟩
  · rcases hnodes n node hn with hold | hnew
    · exact hfree.nodes n node hold
    · exact (reservesNode_iff.mp hnew a r hget).imp Ne.symm Ne.symm
  · rcases hinstallations i b hb with ⟨b', hb', hsame⟩ | hnew
    · exact hsame ▸ hfree.known hsome i b' hb'
    · intro heq
      exact reservesInstallation_iff.mp hnew (heq ▸ hsome) a r hget heq.symm
  · rcases htargets k x hx with hold | hnew
    · exact hfree.targets k x hold
    · obtain ⟨horigin, hinstallation⟩ := reservesTarget_iff.mp hnew a r hget
      exact ⟨horigin.symm, fun hsome heq => hinstallation (heq ▸ hsome) heq.symm⟩

/-! ### Changes of the enrollments -/

/-- With fewer enrollments less is reserved. -/
theorem Reserved.fewer (h : Reserved s)
    (hp : ∀ a r, t.pairings.get? a = some r → s.pairings.get? a = some r)
    (hn : t.nodes = s.nodes) (hi : t.installations = s.installations)
    (hr : t.replacements = s.replacements) : Reserved t := by
  refine ⟨fun a r hget => h.attempt a r (hp a r hget), fun a r a' r' hget hget' =>
    h.apart a r a' r' (hp a r hget) (hp a' r' hget'), fun a r hget => ?_, ?_⟩
  · obtain ⟨h₁, h₂, h₃⟩ := h.free a r (hp a r hget)
    exact ⟨hn ▸ h₁, hi ▸ h₂, hr ▸ h₃⟩
  · rw [hn, hi]
    exact h.active

/-- A pairing that goes frees its reservations only. -/
theorem Reserved.erase (h : Reserved s) :
    Reserved { s with pairings := s.pairings.erase a } := by
  refine h.fewer (fun b r hget => ?_) rfl rfl rfl
  rw [Table.get?_erase] at hget
  split at hget
  · cases hget
  · exact hget

/-- One enrollment is new or gets another row, which is free and apart from the others. -/
theorem Reserved.place {tokens : List String} {pairings : Table String Row} (h : Reserved s)
    (hpairings : ∀ b r, pairings.get? b = some r →
      b = a ∧ r = row ∨ b ≠ a ∧ s.pairings.get? b = some r)
    (hattempt : hex32 a = true) (hfree : Free s row.nodeId row.origin row.installationId)
    (hapart : ∀ b r, b ≠ a → s.pairings.get? b = some r → r.Apart row) :
    Reserved { s with pairings := pairings, tokens := tokens } := by
  refine ⟨fun b r hget => ?_, fun b r b' r' hget hget' hne => ?_, fun b r hget => ?_, h.active⟩
  · rcases hpairings b r hget with ⟨rfl, -⟩ | ⟨-, hold⟩
    · exact hattempt
    · exact h.attempt b r hold
  · rcases hpairings b r hget with ⟨rfl, rfl⟩ | ⟨hb, hold⟩
    · rcases hpairings b' r' hget' with ⟨rfl, -⟩ | ⟨hb', hold'⟩
      · exact absurd rfl hne
      · exact (hapart b' r' hb' hold').symm
    · rcases hpairings b' r' hget' with ⟨rfl, rfl⟩ | ⟨-, hold'⟩
      · exact hapart b r hb hold
      · exact h.apart b r b' r' hold hold' hne
  · rcases hpairings b r hget with ⟨rfl, rfl⟩ | ⟨-, hold⟩
    · exact ⟨hfree.nodes, hfree.known, hfree.targets⟩
    · obtain ⟨h₁, h₂, h₃⟩ := h.free b r hold
      exact ⟨h₁, h₂, h₃⟩

/-- A row gets changed that stays free and apart from the others. -/
theorem Reserved.change {tokens : List String} {f : Row → Row} (h : Reserved s)
    (hr : s.pairings.get? a = some row)
    (hfree : Free s (f row).nodeId (f row).origin (f row).installationId)
    (hapart : ∀ b r, b ≠ a → s.pairings.get? b = some r → r.Apart (f row)) :
    Reserved { s with pairings := s.pairings.update a f, tokens := tokens } := by
  refine h.place (fun b r hget => ?_) (h.attempt a row hr) hfree hapart
  rw [Table.get?_update] at hget
  split at hget
  · rename_i hba
    rw [hba, hr, Option.map_some] at hget
    exact .inl ⟨hba, (Option.some.inj hget).symm⟩
  · rename_i hba
    exact .inr ⟨hba, hget⟩

/-- A change of a row that keeps what it reserves. -/
theorem Reserved.update {tokens : List String} {f : Row → Row} (h : Reserved s)
    (hf : ∀ r, (f r).nodeId = r.nodeId ∧ (f r).origin = r.origin ∧
      (f r).installationId = r.installationId) :
    Reserved { s with pairings := s.pairings.update a f, tokens := tokens } := by
  cases hr : s.pairings.get? a with
  | none =>
      refine h.fewer (fun b r hget => ?_) rfl rfl rfl
      rw [Table.get?_update] at hget
      split at hget
      · rename_i hba
        rw [hba, hr] at hget
        cases hget
      · exact hget
  | some row =>
      obtain ⟨hnode, horigin, hinstallation⟩ := hf row
      refine h.change hr ?_ fun b r hb hget => ?_
      · rw [hnode, horigin, hinstallation]
        exact h.free a row hr
      · obtain ⟨h₁, h₂, h₃⟩ := h.apart b r a row hget hr hb
        exact ⟨hnode ▸ h₁, horigin ▸ h₂, hinstallation ▸ h₃⟩

end Tables

/-! ## The transactions -/

/-- Procedures that keep the reservations. -/
def reserving : Frame Site where
  inv := Reserved
  rel _ _ := True
  refl _ := trivial
  trans _ _ _ _ _ := trivial

section Transactions

variable {cipher : Cipher} {s : Site} {a nodeId origin installationId binding : String} {row : Row}
  {chance : Chance} {β : Type}

/-- A write that keeps the reservations keeps the frame. -/
theorem reserving_write {f : Site → Site} (h : ∀ s, Reserved s → Reserved (f s)) :
    reserving.Respects (Tx.write f : HubTx Unit) :=
  Frame.Keeps.write fun s hs => ⟨h s hs, trivial⟩

/-- What keeps the reservations however it ends keeps the frame. -/
theorem reserving_wp {m : HubTx β}
    (h : ∀ s, Reserved s → m.wp (fun _ t => Reserved t) (fun _ t => Reserved t) s) :
    reserving.Respects m := by
  intro s hs
  apply Tx.wp_mono (h s hs)
  · exact fun _ t ht => ⟨⟨ht, trivial⟩, trivial⟩
  · exact fun _ t ht => ⟨ht, trivial⟩

/-- A transaction keeps the frame if it keeps the reservations when it returns. -/
theorem reserving_undone {m : HubTx β}
    (h : ∀ s, Reserved s → m.wp (fun _ t => Reserved t) (fun _ _ => True) s) :
    reserving.Respects (Tx.transaction m) := by
  refine Frame.Keeps.undone fun s hs => ?_
  apply Tx.wp_mono (h s hs)
  · exact fun _ t ht => ⟨⟨ht, trivial⟩, trivial⟩
  · exact fun _ _ _ => trivial

/-! ### The registry -/

/-- An active installation is inserted only for a Node that there is. -/
theorem insertBinding_reserved {i : Binding} (h : Reserved s)
    (hnode : ∃ node, s.nodes.get? i.nodeId = some node) :
    (insertBinding binding i).wp (fun _ t => Reserved t ∧ t.pairings = s.pairings)
      (fun _ t => Reserved t) s := by
  simp only [insertBinding, Tx.wp_bind, Tx.wp_read, Tx.wp_require, Tx.wp_write, id_eq]
  refine ⟨fun hfree => ⟨fun hnew => ⟨fun _ => ⟨?_, trivial⟩, fun _ => h⟩, fun _ => h⟩, fun _ => h⟩
  have hrows : ∀ j b, (s.installations.insert binding i).get? j = some b →
      b = i ∨ s.installations.get? j = some b := by
    intro j b hb
    rw [Table.get?_insert hnew] at hb
    split at hb
    · exact .inl (Option.some.inj hb).symm
    · exact .inr hb
  refine h.registry rfl (fun _ _ => .inl) (fun j b hb => ?_) (fun _ _ => .inl)
    fun j b hb hactive => ?_
  · rcases hrows j b hb with rfl | hold
    · exact .inr hfree
    · exact .inl ⟨b, hold, rfl⟩
  · rcases hrows j b hb with rfl | hold
    · exact hnode
    · exact h.active j b hold hactive

/-- Registering a Node keeps the reservations. -/
theorem reserving_insertNode {node : Node} :
    reserving.Respects (insertNode nodeId node binding) := by
  apply reserving_wp
  intro s h
  simp only [insertNode, Tx.wp_bind, Tx.wp_read, Tx.wp_require, Tx.wp_write, id_eq]
  refine ⟨fun hfree => ⟨fun hnew => ?_, fun _ => h⟩, fun _ => h⟩
  rw [all_rows_iff] at hnew
  have hnone : s.nodes.get? nodeId = none := by
    by_contra hsome
    obtain ⟨n, hn⟩ := Option.ne_none_iff_exists'.mp hsome
    simpa using hnew nodeId n hn
  have hnodes : Reserved { s with nodes := s.nodes.insert nodeId node } := by
    refine h.registry rfl (fun n node' hn => ?_) (fun _ b hb => .inl ⟨b, hb, rfl⟩)
      (fun _ _ => .inl) fun i b hb hactive => ?_
    · rw [Table.get?_insert hnone] at hn
      split at hn
      · rename_i heq
        rw [heq, ← Option.some.inj hn]
        exact .inr hfree
      · exact .inl hn
    · obtain ⟨n, hn⟩ := h.active i b hb hactive
      exact ⟨n, Table.get?_insert_of_some hn _ _⟩
  have hnode : ∃ n, (s.nodes.insert nodeId node).get? nodeId = some n :=
    ⟨node, by simp [Table.get?_insert hnone]⟩
  exact Tx.wp_mono (insertBinding_reserved hnodes hnode) (fun _ _ ht => ht.1) fun _ _ ht => ht

/-- An installation is changed, to an identity that is not reserved. -/
theorem Reserved.revise {f : Binding → Binding} (h : Reserved s)
    (hnode : ∀ b, (f b).nodeId = b.nodeId)
    (hretired : ∀ b, (f b).retired = false → b.retired = false)
    (hinstallation : ∀ b, (f b).installationId = b.installationId ∨
      s.reservesInstallation (f b).installationId = false) :
    Reserved { s with installations := s.installations.update binding f } := by
  have hrows : ∀ j b, (s.installations.update binding f).get? j = some b →
      ∃ b', s.installations.get? j = some b' ∧ (b = b' ∨ b = f b') := by
    intro j b hb
    rw [Table.get?_update] at hb
    split at hb
    · obtain ⟨b', hb', rfl⟩ := Option.map_eq_some_iff.mp hb
      exact ⟨b', hb', .inr rfl⟩
    · exact ⟨b, hb, .inl rfl⟩
  refine h.registry rfl (fun _ _ => .inl) (fun j b hb => ?_) (fun _ _ => .inl)
    fun j b hb hactive => ?_
  · obtain ⟨b', hb', rfl | rfl⟩ := hrows j b hb
    · exact .inl ⟨b, hb', rfl⟩
    · exact (hinstallation b').imp (fun hsame => ⟨b', hb', hsame.symm⟩) id
  · obtain ⟨b', hb', rfl | rfl⟩ := hrows j b hb
    · exact h.active j b hb' hactive
    · rw [hnode]
      exact h.active j b' hb' (hretired b' hactive)

/-- Filling in an installation keeps the reservations. -/
theorem reserving_updateInstallation :
    reserving.Respects (updateInstallation binding installationId) := by
  apply reserving_wp
  intro s h
  simp only [updateInstallation, Tx.wp_bind, Tx.wp_read, Tx.wp_require, Tx.wp_write, id_eq]
  refine ⟨fun hfree => ⟨fun _ => ?_, fun _ => h⟩, fun _ => h⟩
  exact h.revise (fun _ => rfl) (fun _ hb => hb) fun _ => .inr hfree

/-- A Node is changed, to an endpoint that is not reserved. -/
theorem Reserved.edit {f : Node → Node} (h : Reserved s)
    (hfree : s.reservesNode nodeId origin = false) (hf : ∀ n, (f n).origin = origin) :
    Reserved { s with nodes := s.nodes.update nodeId f } := by
  refine h.registry rfl (fun n node hn => ?_) (fun _ b hb => .inl ⟨b, hb, rfl⟩)
    (fun _ _ => .inl) fun i b hb hactive => ?_
  · rw [Table.get?_update] at hn
    split at hn
    · rename_i heq
      obtain ⟨node', -, rfl⟩ := Option.map_eq_some_iff.mp hn
      rw [heq, hf]
      exact .inr hfree
    · exact .inl hn
  · obtain ⟨n, hn⟩ := h.active i b hb hactive
    dsimp only
    rw [Table.get?_update, hn]
    split
    · exact ⟨f n, rfl⟩
    · exact ⟨n, rfl⟩

/-- Putting a Node keeps the reservations. -/
theorem reserving_putNode {node : Node} : reserving.Respects (putNode nodeId node binding) := by
  apply reserving_undone
  intro s h
  simp only [Tx.wp_bind, Tx.wp_read, Tx.wp_require, id_eq]
  refine ⟨fun _ => ?_, fun _ => trivial⟩
  split
  · simp only [Tx.wp_bind, Tx.wp_require, Tx.wp_write]
    exact ⟨fun hfree => ⟨fun _ => h.edit hfree fun _ => rfl, fun _ => trivial⟩, fun _ => trivial⟩
  · exact Tx.wp_mono (reserving_insertNode s h) (fun _ _ ht => ht.1.1) fun _ _ _ => trivial

/-- Deleting a Node keeps the reservations. -/
theorem reserving_deleteNode {usage : Bool} : reserving.Respects (deleteNode nodeId usage) := by
  apply reserving_undone
  intro s h
  simp only [Tx.wp_bind, Tx.wp_read, Tx.wp_require, Tx.wp_write, id_eq]
  refine ⟨fun _ => ⟨fun _ => ?_, fun _ => trivial⟩, fun _ => trivial⟩
  have hrows : ∀ i b, (s.installations.filterRows fun _ i => i.nodeId ≠ nodeId).get? i = some b →
      s.installations.get? i = some b ∧ b.nodeId ≠ nodeId := by
    intro i b hb
    rw [Table.get?_filterRows] at hb
    obtain ⟨hold, hother⟩ := Option.filter_eq_some_iff.mp hb
    exact ⟨hold, by simpa using hother⟩
  refine h.registry rfl (fun n node hn => ?_) (fun i b hb => .inl ⟨b, (hrows i b hb).1, rfl⟩)
    (fun _ _ => .inl) fun i b hb hactive => ?_
  · rw [Table.get?_erase] at hn
    split at hn
    · cases hn
    · exact .inl hn
  · obtain ⟨hold, hother⟩ := hrows i b hb
    obtain ⟨n, hn⟩ := h.active i b hold hactive
    exact ⟨n, by rw [Table.get?_erase, if_neg hother, hn]⟩

/-- Observing an installation keeps the reservations. -/
theorem reserving_observe : reserving.Respects (observe binding installationId) :=
  Frame.Keeps.transaction <| Frame.Keeps.bind Frame.Keeps.look fun _ _ =>
    Frame.Keeps.bind Frame.Keeps.require fun _ _ => reserving_updateInstallation

/-- The Node of an active installation. -/
theorem Reserved.node_of_active (h : Reserved s) (hactive : s.activeBinding nodeId = some binding) :
    ∃ node, s.nodes.get? nodeId = some node := by
  obtain ⟨i, hi, -⟩ := Option.map_eq_some_iff.mp hactive
  have hcheck := List.find?_some hi
  simp only [Bool.and_eq_true, decide_eq_true_eq, Bool.not_eq_true'] at hcheck
  rw [← hcheck.1]
  exact h.active i.1 i.2 (Table.get?_eq_some_iff.mpr (List.mem_of_find?_eq_some hi)) hcheck.2

/-- Replacing an installation keeps the reservations. -/
theorem reserving_replaceInstallation {tokenEnc dataAddress agentId : String} :
    reserving.Respects (replaceInstallation nodeId origin tokenEnc dataAddress agentId
      installationId binding) := by
  apply reserving_undone
  intro s h
  simp only [Tx.wp_bind, Tx.wp_read, Tx.wp_demand, Tx.wp_require, Tx.wp_write, id_eq]
  refine ⟨fun old hold => ⟨fun _ => ?_, fun _ => trivial⟩, fun _ => trivial⟩
  have hretired : Reserved { s with
      installations := s.installations.update old fun i => { i with retired := true } } := by
    refine h.revise (fun _ => rfl) (fun _ hb => ?_) fun _ => .inl rfl
    cases hb
  refine Tx.wp_mono (insertBinding_reserved hretired (h.node_of_active hold))
    (fun _ t ht => ?_) fun _ _ _ => trivial
  refine ⟨fun hfree => ⟨fun _ => ht.1.edit ?_ fun _ => rfl, fun _ => trivial⟩, fun _ => trivial⟩
  rw [Site.reservesNode, ht.2]
  exact hfree

/-- Reserving a target keeps the reservations. -/
theorem reserving_reserveTarget {target : Option (String × String)} :
    reserving.Respects (reserveTarget a target) := by
  apply reserving_undone
  intro s h
  simp only [Tx.wp_bind, Tx.wp_read, id_eq]
  cases target with
  | none =>
      refine h.registry rfl (fun _ _ => .inl) (fun _ b hb => .inl ⟨b, hb, rfl⟩) (fun k x hx => ?_)
        h.active
      rw [Table.get?_erase] at hx
      split at hx
      · cases hx
      · exact .inl hx
  | some target =>
      simp only [Tx.wp_bind, Tx.wp_require, Tx.wp_write]
      refine ⟨fun hfree => ?_, fun _ => trivial⟩
      refine h.registry rfl (fun _ _ => .inl) (fun _ b hb => .inl ⟨b, hb, rfl⟩) (fun k x hx => ?_)
        h.active
      rw [Table.get?_upsert] at hx
      split at hx
      · right
        have hx' : x = target := by
          rw [← Option.some.inj hx]
          cases s.replacements.get? a <;> rfl
        exact hx' ▸ hfree
      · exact .inl hx

/-! ### The enrollments -/

/-- A check of availability keeps the reservations. -/
theorem reserving_available :
    reserving.Respects (available nodeId origin installationId : HubTx Unit) :=
  Frame.Keeps.bind Frame.Keeps.look fun _ _ => Frame.Keeps.bind Frame.Keeps.require fun _ _ =>
    Frame.Keeps.bind Frame.Keeps.require fun _ _ => Frame.Keeps.require.respects

/-- Reading a pending pairing keeps the reservations. -/
theorem reserving_pending : reserving.Respects (pending a) :=
  Frame.Keeps.bind Frame.Keeps.require fun _ _ => Frame.Keeps.look

/-- A check of a row keeps the reservations. -/
theorem reserving_assertRow : reserving.Respects (assertRow a row) :=
  Frame.Keeps.bind reserving_pending fun _ _ => Frame.Keeps.bind Frame.Keeps.require fun _ _ =>
    Frame.Keeps.bind Frame.Keeps.require fun _ _ => reserving_available

/-- Sending a request keeps the reservations. -/
theorem reserving_sendRequest {q : Request} : reserving.Respects (sendRequest q chance) :=
  Frame.Keeps.bind (reserving_write fun _ h => h.fewer (fun _ _ => id) rfl rfl rfl) fun _ _ =>
    Frame.Keeps.look

/-- Awaiting an answer keeps the reservations. -/
theorem reserving_awaitAnswer {q : Request} {i : ℕ} :
    reserving.Respects (awaitAnswer q i chance) := by
  refine Frame.Keeps.bind Frame.Keeps.look fun answers _ => ?_
  split
  · exact Frame.Keeps.ite (fun _ => Frame.Keeps.check) fun _ => Frame.Keeps.raise
  · exact Frame.Keeps.raise

/-- A change of a row that keeps what it reserves. -/
theorem reserving_updatePairing {f : Row → Row}
    (hf : ∀ r, (f r).nodeId = r.nodeId ∧ (f r).origin = r.origin ∧
      (f r).installationId = r.installationId) :
    reserving.Respects (Tx.write fun s => s.updatePairing a f : HubTx Unit) :=
  reserving_write fun _ h => h.update hf

/-- An enrollment begins. -/
theorem reserving_beginTx {code : PairCode} (hattempt : hex32 chance.attempt = true) :
    reserving.Respects (beginTx cipher code chance) := by
  apply reserving_undone
  intro s h
  simp only [Tx.wp_bind, Tx.wp_read, Tx.wp_require, id_eq]
  refine ⟨fun _ => ?_, fun _ => trivial⟩
  split
  · simp only [beginAgain, Tx.wp_bind, Tx.wp_require, Tx.wp_ofExcept, Tx.wp_pure]
    exact ⟨fun _ => ⟨fun _ _ => ⟨fun _ => h, fun _ => trivial⟩, fun _ _ => trivial⟩,
      fun _ => trivial⟩
  · rename_i hnone
    simp only [beginNew, Tx.wp_bind, Tx.wp_read, Tx.wp_require, Tx.wp_write, Tx.wp_pure, id_eq]
    refine ⟨fun _ => ?_, fun _ => trivial⟩
    refine Tx.wp_mono (available_spec (s := s)) (fun _ t ht => ?_) fun _ _ _ => trivial
    obtain ⟨rfl, hfree⟩ := ht
    refine ⟨fun hnew => ?_, fun _ => trivial⟩
    refine @Reserved.place _ chance.attempt (newRow cipher code chance) _ _ h (fun b r hget => ?_)
      hattempt hfree fun b r _ hget => ?_
    · rw [Table.get?_insert hnew] at hget
      split at hget
      · rename_i hba
        exact .inl ⟨hba, (Option.some.inj hget).symm⟩
      · rename_i hba
        exact .inr ⟨hba, hget⟩
    · have hother := List.find?_eq_none.mp hnone (b, r) (Table.get?_eq_some_iff.mp hget)
      simp only [Bool.or_eq_true, decide_eq_true_eq, not_or] at hother
      exact ⟨hother.1, hother.2, fun hsome => hsome⟩

/-- A retry keeps the reservations. -/
theorem reserving_retryTx : reserving.Respects (retryTx a chance) := by
  refine Frame.Keeps.transaction (Frame.Keeps.bind reserving_pending fun row? _ => ?_)
  cases row? with
  | none => exact Frame.Keeps.pure trivial
  | some row =>
      exact Frame.Keeps.bind Frame.Keeps.require fun _ _ =>
        Frame.Keeps.bind reserving_available fun _ _ =>
          Frame.Keeps.bind Frame.Keeps.require fun _ _ =>
            Frame.Keeps.bind (reserving_updatePairing fun _ => ⟨rfl, rfl, rfl⟩) fun _ _ =>
              Frame.Keeps.pure trivial

/-- An installation gets pinned that no one else has. -/
theorem reserving_pinTx : reserving.Respects (pinTx a row installationId chance) := by
  apply reserving_undone
  intro s h
  simp only [Tx.wp_bind]
  refine wp_assertRow (fun latest hlatest hmatches => ?_) fun _ => trivial
  refine Tx.wp_mono (available_spec (s := s)) (fun _ t ht => ?_) fun _ _ _ => trivial
  obtain ⟨rfl, hfree⟩ := ht
  simp only [Tx.wp_read, Tx.wp_require, Tx.wp_write, Tx.wp_pure, id_eq]
  refine ⟨fun hnew => ?_, fun _ => trivial⟩
  rw [all_rows_iff] at hnew
  refine h.change hlatest ?_ fun b r hb hget => ?_
  · dsimp only
    rw [hmatches.nodeId, hmatches.origin]
    exact hfree
  · obtain ⟨h₁, h₂, -⟩ := h.apart b r a latest hget hlatest hb
    exact ⟨h₁, h₂, fun _ => by simpa [hb] using hnew b r hget⟩

/-- A rotation keeps the reservations. -/
theorem reserving_rotatingTx : reserving.Respects (rotatingTx a row chance) :=
  Frame.Keeps.transaction <| Frame.Keeps.bind reserving_assertRow fun _ _ =>
    reserving_updatePairing fun _ => ⟨rfl, rfl, rfl⟩

/-- The end of a pairing keeps the reservations. -/
theorem reserving_finishTx : reserving.Respects (finishTx a row chance) :=
  Frame.Keeps.transaction <| Frame.Keeps.bind reserving_assertRow fun _ _ =>
    Frame.Keeps.bind Frame.Keeps.require fun _ _ =>
      Frame.Keeps.bind (reserving_write fun _ h => h.erase) fun _ _ =>
        Frame.Keeps.bind reserving_insertNode fun _ _ =>
          Frame.Keeps.bind Frame.Keeps.look fun _ _ =>
            Frame.Keeps.bind Frame.Keeps.demand fun _ _ =>
              Frame.Keeps.bind reserving_updateInstallation fun _ _ =>
                Frame.Keeps.bind Frame.Keeps.require fun _ _ =>
                  reserving_write fun _ h => h.fewer (fun _ _ => id) rfl rfl rfl

/-- Noting an error keeps the reservations. -/
theorem reserving_noteError {message : String} {onlyCancelling : Bool} :
    reserving.Respects (noteError a row message onlyCancelling chance) := by
  refine Frame.Keeps.transaction (reserving_updatePairing fun r => ?_)
  split
  · exact ⟨rfl, rfl, rfl⟩
  · exact ⟨rfl, rfl, rfl⟩

/-- The end of a cancellation keeps the reservations. -/
theorem reserving_finishCancel {outcome : Outcome} :
    reserving.Respects (finishCancel a row outcome chance) :=
  Frame.Keeps.bind reserving_assertRow fun _ _ => Frame.Keeps.bind Frame.Keeps.look fun _ _ =>
    Frame.Keeps.bind Frame.Keeps.require fun _ _ =>
      reserving_write fun _ h => h.erase.fewer (fun _ _ => id) rfl rfl rfl

/-- Sealing what is disposed of keeps the reservations. -/
theorem reserving_sealDisposal : reserving.Respects (sealDisposal cipher row chance) := by
  rw [sealDisposal]
  split
  · exact Frame.Keeps.pure trivial
  · exact Frame.Keeps.bind Frame.Keeps.check fun _ _ =>
      Frame.Keeps.bind Frame.Keeps.check fun _ _ =>
        Frame.Keeps.bind (reserving_write fun _ h => h.fewer (fun _ _ => id) rfl rfl rfl) fun _ _ =>
          Frame.Keeps.pure trivial

/-- A cancellation keeps the reservations. -/
theorem reserving_cancelTx : reserving.Respects (cancelTx cipher a chance) := by
  refine Frame.Keeps.transaction (Frame.Keeps.bind reserving_pending fun row? _ =>
    Frame.Keeps.bind Frame.Keeps.look fun s _ => ?_)
  cases row? with
  | none =>
      exact Frame.Keeps.ite (fun _ => Frame.Keeps.pure trivial) fun _ =>
        Frame.Keeps.ite (fun _ => Frame.Keeps.raise) fun _ => Frame.Keeps.raise
  | some row =>
      refine Frame.Keeps.bind reserving_available fun _ _ =>
        Frame.Keeps.bind Frame.Keeps.require fun _ _ => Frame.Keeps.ite (fun _ => ?_) fun _ => ?_
      · exact Frame.Keeps.bind (reserving_updatePairing fun _ => ⟨rfl, rfl, rfl⟩) fun _ _ =>
          Frame.Keeps.bind reserving_finishCancel fun _ _ => Frame.Keeps.pure trivial
      · exact Frame.Keeps.bind Frame.Keeps.require fun _ _ =>
          Frame.Keeps.bind Frame.Keeps.require fun _ _ =>
            Frame.Keeps.bind reserving_sealDisposal fun _ _ =>
              Frame.Keeps.bind (reserving_updatePairing fun _ => ⟨rfl, rfl, rfl⟩) fun _ _ =>
                Frame.Keeps.look

/-! ### The last transaction -/

/-- A row that was read last is still there. -/
theorem Reserved.wp_assertRow {q : Unit → Site → Prop} {r : PairError → Site → Prop}
    (h : Reserved s) (hr : s.pairings.get? a = some row) (hq : q () s) :
    (assertRow a row).wp q r s := by
  simp only [assertRow, pending, Tx.wp_bind, Tx.wp_require, Tx.wp_read, hr, Option.any_some,
    decide_true, Bool.and_self, h.attempt a row hr, forall_const, not_true_eq_false,
    IsEmpty.forall_iff, and_true]
  exact (h.free a row hr).wp_available hq

/-- A Node is inserted under a free id, with a free endpoint. -/
theorem wp_insertNode {node : Node} {q : Unit → Site → Prop} {r : PairError → Site → Prop}
    (hfree : s.reservesNode nodeId node.origin = false)
    (hnodes : ∀ n x, s.nodes.get? n = some x → n ≠ nodeId ∧ x.origin ≠ node.origin)
    (hbinding : s.installations.get? binding = none)
    (hidle : ∀ i b, s.installations.get? i = some b → b.nodeId = nodeId → b.retired = true)
    (hq : q () { s with
      nodes := s.nodes.insert nodeId node
      installations := s.installations.insert binding
        ⟨nodeId, s.nextGeneration nodeId, nodeId, "", false⟩ }) :
    (insertNode nodeId node binding).wp q r s := by
  have hnew : s.nodes.rows.all (fun n => !(n.1 = nodeId || n.2.origin = node.origin)) = true := by
    rw [all_rows_iff]
    simpa using hnodes
  have hone : s.installations.rows.all (fun j => !(j.2.nodeId = nodeId && !j.2.retired) &&
      (("" : String) = "" || j.2.installationId ≠ "")) = true := by
    rw [all_rows_iff]
    simpa [or_iff_not_imp_left] using hidle
  simp only [insertNode, insertBinding, Tx.wp_bind, Tx.wp_read, Tx.wp_require, Tx.wp_write, id_eq]
  exact ⟨fun _ => ⟨fun _ => ⟨fun _ => ⟨fun _ => ⟨fun _ => hq, absurd hone⟩, absurd hbinding⟩,
    fun hno => absurd (reservesInstallation_iff.mpr (absurd rfl)) hno⟩, absurd hnew⟩, absurd hfree⟩

/-- A Node whose candidate is verified can be registered. -/
theorem Reserved.finish (h : Reserved s) (hinv : s.Inv cipher) (hfresh : chance.Fresh s)
    (hr : s.pairings.get? a = some row) (hcancelling : row.cancelling = false) :
    (finishTx a row chance).wp
      (fun _ t => t.history.get? a ≠ none ∧ ∃ node, t.nodes.get? row.nodeId = some node ∧
        node.origin = row.origin ∧ node.tokenEnc = row.candidateEnc)
      (fun _ _ => False) s := by
  have hfree := h.free a row hr
  have hothers : ∀ b r, (s.pairings.erase a).get? b = some r → row.Apart r := by
    intro b r hget
    rw [Table.get?_erase] at hget
    split at hget
    · cases hget
    · rename_i hne
      exact h.apart a row b r hr hget (Ne.symm hne)
  have hnone : s.nodes.get? row.nodeId = none := by
    by_contra hsome
    obtain ⟨n, hn⟩ := Option.ne_none_iff_exists'.mp hsome
    exact (hfree.nodes _ n hn).1 rfl
  obtain ⟨-, -, -, -, hbinding, -⟩ := hfresh
  simp only [finishTx, Tx.wp_transaction, Tx.wp_bind]
  refine h.wp_assertRow hr ?_
  simp only [Tx.wp_require, Tx.wp_write]
  refine ⟨fun _ => ?_, absurd hcancelling⟩
  refine wp_insertNode (reservesNode_iff.mpr fun b r hget => ?_) hfree.nodes hbinding
    (fun i b hb hnode => ?_) ?_
  · exact ⟨(hothers b r hget).nodeId.symm, (hothers b r hget).origin.symm⟩
  · -- an active installation has a Node, and the id of the enrollment has none
    by_contra hactive
    obtain ⟨n, hn⟩ := h.active i b hb (Bool.eq_false_of_not_eq_true hactive)
    rw [hnode, hnone] at hn
    cases hn
  · simp only [updateInstallation, Tx.wp_bind, Tx.wp_read, Tx.wp_demand, Tx.wp_require, Tx.wp_write,
      id_eq]
    have hinserted : ∀ i b, (s.installations.insert chance.binding
        ⟨row.nodeId, s.nextGeneration row.nodeId, row.nodeId, "", false⟩).get? i = some b →
          row.installationId ≠ "" → b.installationId ≠ row.installationId := by
      intro i b hb hsome
      rw [Table.get?_insert hbinding] at hb
      split at hb
      · rw [← Option.some.inj hb]
        exact Ne.symm hsome
      · exact hfree.known hsome i b hb
    refine ⟨fun active _ => ⟨fun _ => ⟨fun _ => ⟨fun hnew => ⟨?_, ?_⟩, ?_⟩, fun hno => hno ?_⟩,
      fun hno => hno ?_⟩, fun hno => ?_⟩
    · simp [Table.get?_insert hnew]
    · exact ⟨_, (Table.get?_insert hnone _ _).trans (if_pos rfl), rfl, rfl⟩
    · exact fun hno => hno (hinv.unsettled hr).1
    · by_cases hsome : row.installationId = ""
      · exact .inl hsome
      · right
        rw [all_rows_iff]
        intro i b hb
        simp [hinserted i b hb hsome]
    · exact reservesInstallation_iff.mpr fun hsome b r hget =>
        ((hothers b r hget).installation hsome).symm
    · have hget : (s.installations.insert chance.binding
          ⟨row.nodeId, s.nextGeneration row.nodeId, row.nodeId, "", false⟩).get? chance.binding =
            some ⟨row.nodeId, s.nextGeneration row.nodeId, row.nodeId, "", false⟩ := by
        simp [Table.get?_insert hbinding]
      have hactive := List.find?_eq_none.mp (Option.map_eq_none_iff.mp hno) _
        (Table.get?_eq_some_iff.mp hget)
      simp at hactive

end Transactions

/-! ## The calls -/

/-- Every action keeps the reservations, if its random ids are well formed. -/
def reservations : Discipline Chance Unit Site where
  inv := Reserved
  step _ _ := True
  rel _ _ := True
  ok _ o _ := hex32 o.attempt = true
  refl _ := trivial
  sub _ _ _ := trivial
  trans _ _ _ _ _ := trivial

section Scripts

variable {cipher : Cipher} {a x : String} {row : Row}

/-- An action that keeps the reservations keeps the discipline. -/
theorem steady_perform {β : Type} {action : Chance → HubTx β}
    (h : ∀ chance, hex32 chance.attempt = true → reserving.Respects (action chance)) :
    (Script.perform () action).Steady reservations := by
  apply Script.Steady.perform
  intro chance s hs hchance
  apply Tx.wp_mono (h chance hchance s hs)
  · exact fun _ _ ht => ht.1
  · exact fun _ _ ht => ht

/-- An exchange keeps the discipline. -/
theorem steady_exchange {order : Order} : (exchange a row x order).Steady reservations :=
  Script.Steady.bind (steady_perform fun _ _ => reserving_assertRow) fun _ =>
    Script.Steady.bind (steady_perform fun _ _ => reserving_sendRequest) fun _ =>
      Script.Steady.bind (steady_perform fun _ _ => reserving_awaitAnswer) fun _ =>
        Script.Steady.bind (steady_perform fun _ _ => reserving_assertRow) fun _ =>
          Script.Steady.pure

/-- An exchange that a 401 may end. -/
theorem steady_unless {β γ : Type} {p : HubScript β} {f : β → γ} {other : HubScript γ}
    (h : p.Steady reservations) (hother : other.Steady reservations) :
    ((f <$> p).handle fun e => if e = .http 401 then other else .raise e).Steady reservations := by
  refine Script.Steady.handle (Script.Steady.bind (f := fun y => pure (f y)) h fun _ =>
    Script.Steady.pure) fun e => ?_
  split
  · exact hother
  · exact Script.Steady.raise

/-- An enrolment keeps the discipline. -/
theorem steady_enroll : (enroll cipher a row).Steady reservations := by
  refine Script.Steady.bind Script.Steady.ofExcept fun bootstrap =>
    Script.Steady.bind Script.Steady.ofExcept fun candidate => Script.Steady.bind ?_ fun row' =>
      Script.Steady.bind ?_ fun _ => Script.Steady.bind Script.Steady.ofExcept fun _ =>
        steady_perform fun _ _ => reserving_finishTx
  · rw [pin]
    split
    · exact Script.Steady.bind steady_exchange fun _ =>
        Script.Steady.bind Script.Steady.ofExcept fun _ =>
          steady_perform fun _ _ => reserving_pinTx
    · exact Script.Steady.pure
  · refine Script.Steady.handle steady_exchange fun e => ?_
    split
    · exact Script.Steady.bind steady_exchange fun _ =>
        Script.Steady.bind Script.Steady.ofExcept fun _ =>
          Script.Steady.bind (steady_perform fun _ _ => reserving_rotatingTx) fun _ =>
            Script.Steady.bind steady_exchange fun _ => steady_exchange
    · exact Script.Steady.raise

/-- A retry keeps the discipline. -/
theorem steady_retry : (retry cipher a).Steady reservations := by
  refine Script.Steady.bind (steady_perform fun _ _ => reserving_retryTx) fun row? => ?_
  cases row? with
  | none => exact Script.Steady.pure
  | some row =>
      exact Script.Steady.handle steady_enroll fun _ =>
        steady_perform fun _ _ => reserving_noteError

/-- The search for a credential keeps the discipline. -/
theorem steady_findCredential {credentials : List String} :
    (findCredential cipher a row credentials).Steady reservations := by
  induction credentials with
  | nil => exact Script.Steady.pure
  | cons sealed rest ih =>
      refine Script.Steady.bind Script.Steady.ofExcept fun _ =>
        Script.Steady.bind (steady_unless steady_exchange Script.Steady.pure) fun body? => ?_
      cases body? with
      | none => exact ih
      | some body =>
          exact Script.Steady.bind Script.Steady.ofExcept fun _ => Script.Steady.pure

/-- The check of a revocation keeps the discipline. -/
theorem steady_requireRevoked {sealed : String} :
    (requireRevoked cipher a row sealed).Steady reservations :=
  Script.Steady.bind Script.Steady.ofExcept fun _ =>
    Script.Steady.bind (steady_unless steady_exchange Script.Steady.pure) fun _ =>
      Script.Steady.ofExcept

/-- Discarding a credential keeps the discipline. -/
theorem steady_discard {sealed : String} : (discard cipher a row sealed).Steady reservations := by
  refine Script.Steady.bind Script.Steady.ofExcept fun disposal =>
    Script.Steady.bind steady_findCredential fun _ =>
      Script.Steady.bind Script.Steady.ofExcept fun current => Script.Steady.bind ?_ fun _ =>
        Script.Steady.bind steady_exchange fun body =>
          Script.Steady.bind Script.Steady.ofExcept fun _ => Script.Steady.bind ?_ fun _ =>
            Script.Steady.bind Script.Steady.ofExcept fun _ =>
              Script.Steady.bind steady_requireRevoked fun _ =>
                Script.Steady.bind steady_requireRevoked fun _ =>
                  Script.Steady.bind steady_exchange fun _ =>
                    Script.Steady.bind Script.Steady.ofExcept fun _ =>
                      steady_perform fun _ _ => Frame.Keeps.transaction reserving_finishCancel
  · rw [revoke]
    split
    · exact Script.Steady.pure
    · exact Script.Steady.bind (f := fun _ => pure ()) steady_exchange fun _ => Script.Steady.pure
  · rw [makeIdle]
    split
    · exact Script.Steady.pure
    · exact Script.Steady.bind steady_exchange fun _ => steady_exchange

/-- Every action of the enrollment keeps the reservations. -/
theorem steady_script (call : Call) : (call.script cipher).Steady reservations := by
  cases call with
  | pair code =>
      exact Script.Steady.bind (steady_perform fun _ h => reserving_beginTx h) fun _ => steady_retry
  | retry attempt confirmRetry =>
      rw [Call.script]
      split
      · exact steady_retry
      · exact Script.Steady.raise
  | cancel attempt confirmCancel acknowledgeCredentialReset =>
      rw [Call.script, Pairing.cancel]
      split
      · refine Script.Steady.bind (steady_perform fun _ _ => reserving_cancelTx) fun row? => ?_
        cases row? with
        | none => exact Script.Steady.pure
        | some row =>
            exact Script.Steady.handle steady_discard fun _ =>
              steady_perform fun _ _ => reserving_noteError
      · exact Script.Steady.raise

/-- So does everything that happens around it. -/
theorem reserved_happen (e : Surroundings) {s : Site} (h : Reserved s) : Reserved (e.happen s) := by
  cases e with
  | served request service =>
      rw [Surroundings.happen, Site.served]
      split
      · exact h
      · split
        · exact h
        · exact h.fewer (fun _ _ => id) rfl rfl rfl
  | installed origin token =>
      rw [Surroundings.happen, Site.installed]
      split
      · exact h
      · exact h.fewer (fun _ _ => id) rfl rfl rfl
  | put nodeId node binding => exact (reserving_putNode.later h).1
  | deleted nodeId usage => exact (reserving_deleteNode.later h).1
  | observed binding installationId => exact (reserving_observe.later h).1
  | replaced nodeId origin tokenEnc dataAddress agentId installationId binding =>
      exact (reserving_replaceInstallation.later h).1
  | reserved attempt target => exact (reserving_reserveTarget.later h).1

end Scripts

/-! ## Runs -/

section Runs

variable {cipher : Cipher} {nodes : Table String Node} {installations : Table String Binding}
  {replacements : Table String (String × String)} {es : List Event} {w : System} {a : String}

/-- The reservations are kept in every run. -/
theorem reserved_run
    (hactive : ∀ i b, installations.get? i = some b → b.retired = false →
      ∃ node, nodes.get? b.nodeId = some node)
    (hrun : Run (Step cipher) (start nodes installations replacements) es w) :
    Reserved w.store := by
  have hstart : Reserved (start nodes installations replacements).store := by
    refine ⟨fun a r hr => ?_, fun a r a' r' hr => ?_, fun a r hr => ?_, hactive⟩
    · cases hr
    · cases hr
    · cases hr
  have hsafe : Pool.Safe reservations (fun _ _ _ => True) (fun _ _ _ => True)
      (start nodes installations replacements) :=
    Pool.safe_start hstart
  have hmono : Run (Guarded (Pool.Step (Call.script cipher) Surroundings.happen)
      (Pool.Allowed reservations.ok)) (start nodes installations replacements) es w := by
    apply hrun.mono
    intro u e v huv
    refine ⟨huv.1, ?_⟩
    have hallowed := huv.2
    cases e with
    | run i o =>
        intro k name γ action next hthread
        obtain ⟨-, -, -, -, -, hattempt⟩ := hallowed k name γ action next hthread
        exact hattempt
    | enter call => trivial
    | answer i => trivial
    | crash => trivial
    | outside e => trivial
  exact (hsafe.run (fun k s _ => (steady_script k).safe s)
    (fun e s hs => ⟨reserved_happen e hs, trivial⟩) hmono).1.inv

/-- Over every interleaving of enrollments, retries and cancellations with lost, late and
repeated exchanges, crashes and other changes of the registry: a pending enrollment shares its
id, its endpoint and its installation with no other, and with nothing that is registered or
being replaced; and so its last transaction, when it comes, registers the Node. -/
theorem pairing_reservation_holds
    (hactive : ∀ i b, installations.get? i = some b → b.retired = false →
      ∃ node, nodes.get? b.nodeId = some node)
    (hrun : Run (Step cipher) (start nodes installations replacements) es w) {r : Row}
    (hr : w.store.pairings.get? a = some r) :
    (∀ a' r', w.store.pairings.get? a' = some r' → a' ≠ a → r.Apart r') ∧
      Free w.store r.nodeId r.origin r.installationId ∧
      (r.cancelling = false → ∀ chance, chance.Fresh w.store →
        ∃ t node, finishTx a r chance w.store = (.ok (), t) ∧ t.history.get? a ≠ none ∧
          t.nodes.get? r.nodeId = some node ∧ node.origin = r.origin ∧
          node.tokenEnc = r.candidateEnc) := by
  have hreserved := reserved_run hactive hrun
  obtain ⟨hsafe, -⟩ := safe_start.run hrun
  refine ⟨fun a' r' hr' hne => hreserved.apart a r a' r' hr hr' hne.symm, hreserved.free a r hr,
    fun hcancelling chance hfresh => ?_⟩
  have hfinish := hreserved.finish hsafe.inv hfresh hr hcancelling
  revert hfinish
  unfold Tx.wp
  rcases finishTx a r chance w.store with ⟨_ | _, t⟩
  · exact False.elim
  · intro ht
    obtain ⟨hhistory, node, hnode, hrest⟩ := ht
    exact ⟨t, node, rfl, hhistory, hnode, hrest⟩

/-- The rotation of the example is under way, and its Node can be registered. -/
theorem pairing_reservation_holds_edge :
    ∃ r t, edgeRotating.store.pairings.get? (hexId 'a') = some r ∧
      finishTx (hexId 'a') r (edgeChance 'b' none) edgeRotating.store = (.ok (), t) := by
  obtain ⟨es, hrun⟩ := run_edgeRotating
  have hrow : (edgeRotating.store.pairings.get? (hexId 'a')).map Row.cancelling = some false := by
    decide +kernel
  obtain ⟨r, hr, hcancelling⟩ := Option.map_eq_some_iff.mp hrow
  have hfresh : (edgeChance 'b' none).Fresh edgeRotating.store := by decide +kernel
  have hactive : ∀ i b, (Table.empty : Table String Binding).get? i = some b → b.retired = false →
      ∃ node, (Table.empty : Table String Node).get? b.nodeId = some node := by
    intro i b hb
    cases hb
  obtain ⟨-, -, hfinish⟩ :=
    pairing_reservation_holds hactive (run_edgeInstalled.append hrun) hr
  obtain ⟨t, node, ht, -⟩ := hfinish hcancelling _ hfresh
  exact ⟨r, t, hr, ht⟩

end Runs

end Pairing
end Nodes
end DarkXray
