import DarkXray.Library.Frames
import DarkXray.Nodes.CredentialRuns
import DarkXray.Nodes.PairingCustody

/-!
# Safety of the first enrollment

The transactions of the Hub change the custody of the tokens in the ways that keep its
invariant; the scripts send only requests that they may send; and so do all threads together,
whatever happens around them.

Main results:

- Theorem {lit}`safe_script`: the calls of the Hub keep the invariant, and each of their
  actions is a step of the enrollment.
- Theorem {lit}`pairing_settles_once`: an attempt ends once and for all, and one that is
  withdrawn has never sent anything but probes.
- Theorem {lit}`pairing_keeps_credential`: requests change the token of an Agent only to one
  in the journal of a pending enrollment.
- Theorem {lit}`paired_credential_current`: a Node is registered with its Agent's token.
- Theorem {lit}`discarded_credential_dead`: an Agent never again has a token of an enrollment
  that was discarded.
-/

namespace DarkXray
namespace Nodes
namespace Pairing

open Library

/-! ## The transactions -/

section Transactions

variable {cipher : Cipher} {s t : Site} {a o x b c : String} {n : ℕ} {row : Row} {chance : Chance}

/-- The journal of an enrollment is that of a row that a thread has read. -/
structure Row.Matches (row latest : Row) : Prop where
  origin : latest.origin = row.origin
  nodeId : latest.nodeId = row.nodeId
  bootstrapEnc : latest.bootstrapEnc = row.bootstrapEnc
  candidateEnc : latest.candidateEnc = row.candidateEnc
  cancelling : latest.cancelling = row.cancelling
  disposalEnc : latest.disposalEnc = row.disposalEnc

/-- A check of availability. -/
theorem wp_available {nodeId origin installationId : String} {q : Unit → Site → Prop}
    {r : PairError → Site → Prop} (hq : q () s) (hr : ∀ e, r e s) :
    (available nodeId origin installationId).wp q r s := by
  simp only [available, Tx.wp_bind, Tx.wp_read, Tx.wp_require]
  exact ⟨fun _ => ⟨fun _ => ⟨fun _ => hq, fun _ => hr _⟩, fun _ => hr _⟩, fun _ => hr _⟩

/-- Reading a pending pairing. -/
theorem wp_pending {q : Option Row → Site → Prop} {r : PairError → Site → Prop}
    (hq : q (s.pairings.get? a) s) (hr : ∀ e, r e s) : (pending a).wp q r s := by
  simp only [pending, Tx.wp_bind, Tx.wp_read, Tx.wp_require]
  exact ⟨fun _ => hq, fun _ => hr _⟩

/-- A check of a row. -/
theorem wp_assertRow {q : Unit → Site → Prop} {r : PairError → Site → Prop}
    (hq : ∀ latest, s.pairings.get? a = some latest → row.Matches latest → q () s)
    (hr : ∀ e, r e s) : (assertRow a row).wp q r s := by
  rw [assertRow, Tx.wp_bind]
  apply wp_pending _ hr
  simp only [Tx.wp_bind, Tx.wp_require]
  refine ⟨fun _ => ⟨fun hsame => ?_, fun _ => hr _⟩, fun _ => hr _⟩
  cases hget : s.pairings.get? a with
  | none => simp [hget] at hsame
  | some latest =>
      simp only [hget, Option.any_some, Bool.and_eq_true, decide_eq_true_eq] at hsame
      obtain ⟨⟨⟨⟨⟨⟨hnode, horigin⟩, -⟩, hbootstrap⟩, hcandidate⟩, hcancelling⟩, hdisposal⟩ := hsame
      exact wp_available
        (hq latest hget ⟨horigin, hnode, hbootstrap, hcandidate, hcancelling, hdisposal⟩) hr

/-- A row that matches has the same rotations. -/
theorem Row.Matches.leads {latest : Row} (h : row.Matches latest) (x y : String) :
    latest.leads cipher x y ↔ row.leads cipher x y := by
  rw [Row.leads, Row.leads, h.bootstrapEnc, h.candidateEnc, h.disposalEnc]

/-- What a thread knows of the row that it has read. -/
structure Held (cipher : Cipher) (s : Site) (a : String) (row : Row) (b c : String) : Prop where
  bootstrap : cipher.decrypt row.bootstrapEnc = some b
  candidate : cipher.decrypt row.candidateEnc = some c
  known : (s.keyring cipher).Known a

/-- A row goes on holding its credentials. -/
theorem Held.later (h : Held cipher s a row b c) (hrel : s.Onward cipher t) :
    Held cipher t a row b c :=
  ⟨h.bootstrap, h.candidate, hrel.keyring.known a h.known⟩

/-- A pending enrollment is known, and its tokens can be read. -/
theorem held_of_pending (h : s.Inv cipher) (hr : s.pairings.get? a = some row) :
    ∃ b c, Held cipher s a row b c := by
  obtain ⟨b, c, hb, hc, -⟩ := (h.rows a row hr).opens
  exact ⟨b, c, hb, hc, .inr (by simp [Site.keyring, hr])⟩

/-- The rotations of a row whose rotation is announced are covered. -/
theorem covered_of_rotating {latest : Row} {x y : String} (hr : s.pairings.get? a = some latest)
    (hphase : latest.phase = .rotating) (hleads : latest.leads cipher x y) :
    (s.keyring cipher).Covered a latest.origin x y :=
  .inl ⟨latest.claim cipher, by simp [Site.keyring, hr], rfl, hphase, hleads⟩

/-- Beginning a pairing keeps the keyring. -/
theorem beginTx_spec {code : PairCode} (h : s.Inv cipher) (hfresh : chance.Fresh s) :
    (beginTx cipher code chance).wp (fun _ t => t.Inv cipher ∧ s.Advance cipher t)
      (fun _ t => t = s) s := by
  simp only [beginTx, Tx.wp_transaction, Tx.wp_bind, Tx.wp_read, Tx.wp_require, id_eq]
  refine ⟨fun _ => ?_, fun _ => trivial⟩
  split
  · simp only [beginAgain, Tx.wp_bind, Tx.wp_require, Tx.wp_ofExcept, Tx.wp_pure]
    exact ⟨fun _ => ⟨fun _ _ => ⟨fun _ => ⟨h, .refl s⟩, fun _ => trivial⟩, fun _ _ => trivial⟩,
      fun _ => trivial⟩
  · rename_i hnone
    simp only [beginNew, Tx.wp_bind, Tx.wp_read, Tx.wp_require, id_eq]
    refine ⟨fun _ => wp_available ?_ fun _ => trivial, fun _ => trivial⟩
    simp only [Tx.wp_write, Tx.wp_pure]
    refine ⟨fun _ => h.enter hfresh fun a r hr hsame => ?_, fun _ => trivial⟩
    have hother := List.find?_eq_none.mp hnone (a, r) (Table.get?_eq_some_iff.mp hr)
    simp [hsame] at hother

/-- The first transaction of {lit}`retry` reads a row. -/
theorem retryTx_spec (h : s.Inv cipher) :
    (retryTx a chance).wp
      (fun row? t => (t.Inv cipher ∧ s.Advance cipher t) ∧
        ∀ row, row? = some row → ∃ b c, Held cipher t a row b c)
      (fun _ t => t = s) s := by
  simp only [retryTx, Tx.wp_transaction, Tx.wp_bind]
  apply wp_pending _ fun _ => trivial
  cases hget : s.pairings.get? a with
  | none =>
      refine ⟨⟨h, .refl s⟩, fun _ hrow => ?_⟩
      cases hrow
  | some row =>
      simp only [Tx.wp_bind, Tx.wp_require]
      refine ⟨fun _ => wp_available ?_ fun _ => trivial, fun _ => trivial⟩
      simp only [Tx.wp_write, Tx.wp_pure]
      refine ⟨fun _ => ?_, fun _ => trivial⟩
      obtain ⟨hinv, hadvance⟩ := h.revise_alike (a := a)
        (f := fun r => { r with
          operationRevision := row.operationRevision + 1, updatedAt := chance.now })
        fun _ _ => ⟨rfl, rfl, rfl, rfl, rfl, rfl⟩
      obtain ⟨b, c, hheld⟩ := held_of_pending h hget
      refine ⟨⟨hinv, hadvance⟩, fun row' hrow' => ?_⟩
      obtain rfl := Option.some.inj hrow'
      exact ⟨b, c, hheld.bootstrap, hheld.candidate, hadvance.onward.keyring.known a hheld.known⟩

/-- Pinning an installation keeps the keyring. -/
theorem pinTx_spec {installation : String} (h : s.Inv cipher) (hheld : Held cipher s a row b c) :
    (pinTx a row installation chance).wp
      (fun row' t => (t.Inv cipher ∧ s.Advance cipher t) ∧ Held cipher t a row' b c)
      (fun _ t => t = s) s := by
  simp only [pinTx, Tx.wp_transaction, Tx.wp_bind]
  refine wp_assertRow (fun _ _ _ => wp_available ?_ fun _ => trivial) fun _ => trivial
  simp only [Tx.wp_read, Tx.wp_require, Tx.wp_write, Tx.wp_pure, id_eq]
  refine ⟨fun _ => ?_, fun _ => trivial⟩
  obtain ⟨hinv, hadvance⟩ := h.revise_alike (a := a)
    (f := fun r => { r with installationId := installation })
    fun _ _ => ⟨rfl, rfl, rfl, rfl, rfl, rfl⟩
  exact ⟨⟨hinv, hadvance⟩, hheld.bootstrap, hheld.candidate,
    hadvance.onward.keyring.known a hheld.known⟩

/-- Once a rotation is announced, the thread may send it. -/
theorem rotatingTx_spec (h : s.Inv cipher) (hheld : Held cipher s a row b c) :
    (rotatingTx a row chance).wp
      (fun _ t => (t.Inv cipher ∧ s.Advance cipher t) ∧
        (t.keyring cipher).Covered a row.origin b c ∧ t.Announced a)
      (fun _ t => t = s) s := by
  simp only [rotatingTx, Tx.wp_transaction, Tx.wp_bind]
  refine wp_assertRow (fun latest hlatest hmatches => ?_) fun _ => trivial
  simp only [Tx.wp_write]
  let f : Row → Row := fun r => { r with phase := .rotating, updatedAt := chance.now }
  have hsound : (f latest).Sound cipher s.tokens :=
    (h.rows a latest hlatest).alike rfl rfl rfl rfl fun _ => rfl
  obtain ⟨hinv, hadvance⟩ := h.revise (f := f) hlatest hsound rfl (fun _ => rfl)
    (fun _ _ => id) (fun _ _ => .inr) (List.Subset.refl _)
  have hget : (s.updatePairing a f).pairings.get? a = some (f latest) := by
    simp [Site.updatePairing, hlatest]
  refine ⟨⟨hinv, hadvance⟩, ?_, .inl ⟨f latest, hget, rfl⟩⟩
  have hleads : (f latest).leads cipher b c :=
    .inl ⟨hmatches.bootstrapEnc ▸ hheld.bootstrap, hmatches.candidateEnc ▸ hheld.candidate⟩
  have hcovered := covered_of_rotating hget rfl hleads
  exact hmatches.origin ▸ hcovered

/-- Noting an error keeps the keyring. -/
theorem noteError_spec {message : String} {onlyCancelling : Bool} (h : s.Inv cipher) :
    (noteError a row message onlyCancelling chance).wp
      (fun _ t => t.Inv cipher ∧ s.Advance cipher t) (fun _ t => t = s) s := by
  simp only [noteError, Tx.wp_transaction, Tx.wp_write]
  apply h.revise_alike
  intro r _
  split
  · exact ⟨rfl, rfl, rfl, rfl, rfl, rfl⟩
  · exact .refl r

/-- Inserting a binding writes the installations only. -/
theorem insertBinding_spec {binding : String} {i : Binding} :
    (insertBinding binding i).wp
      (fun _ t => ∃ installations, t = { s with installations := installations })
      (fun _ _ => True) s := by
  simp only [insertBinding, Tx.wp_bind, Tx.wp_read, Tx.wp_require, Tx.wp_write, id_eq]
  exact ⟨fun _ => ⟨fun _ => ⟨fun _ => ⟨_, rfl⟩, fun _ => trivial⟩, fun _ => trivial⟩,
    fun _ => trivial⟩

/-- Filling in an installation writes the installations only. -/
theorem updateInstallation_spec {binding installationId : String} :
    (updateInstallation binding installationId).wp
      (fun _ t => ∃ installations, t = { s with installations := installations })
      (fun _ _ => True) s := by
  simp only [updateInstallation, Tx.wp_bind, Tx.wp_read, Tx.wp_require, Tx.wp_write, id_eq]
  exact ⟨fun _ => ⟨fun _ => ⟨_, rfl⟩, fun _ => trivial⟩, fun _ => trivial⟩

/-- Registering a Node writes the Nodes and the installations only. -/
theorem insertNode_spec {nodeId binding : String} {node : Node} :
    (insertNode nodeId node binding).wp
      (fun _ t => s.nodes.get? nodeId = none ∧ ∃ installations,
        t = { s with nodes := s.nodes.insert nodeId node, installations := installations })
      (fun _ _ => True) s := by
  simp only [insertNode, Tx.wp_bind, Tx.wp_read, Tx.wp_require, Tx.wp_write, id_eq]
  refine ⟨fun _ => ⟨fun hnew => ?_, fun _ => trivial⟩, fun _ => trivial⟩
  refine Tx.wp_mono insertBinding_spec (fun _ t ht => ?_) fun _ _ _ => trivial
  obtain ⟨installations, rfl⟩ := ht
  refine ⟨?_, installations, rfl⟩
  rw [Table.get?_eq_none_iff]
  intro hmem
  obtain ⟨node', hnode', hkey⟩ := List.mem_map.mp hmem
  have hother := List.all_eq_true.mp hnew node' hnode'
  simp [hkey] at hother

/-- A registration settles the pairing. -/
theorem settles_registered {nodes : Table String Node} {installations : Table String Binding}
    {receipt : Receipt} (hhistory : s.history.get? a = none)
    (hcancellations : s.cancellations.get? a = none) :
    Settles s { s with
      pairings := s.pairings.erase a
      nodes := nodes
      installations := installations
      history := s.history.insert a receipt } a where
  pairings := rfl
  agents := rfl
  tokens := rfl
  requests := rfl
  answers := rfl
  history d hd := by simp [Table.get?_insert hhistory, hd]
  cancellations _ _ := rfl
  once := .inl ⟨by simp [Table.get?_insert hhistory], hcancellations⟩

/-- A cancellation settles the pairing. -/
theorem settles_cancelled (receipt : Cancellation) (hhistory : s.history.get? a = none)
    (hcancellations : s.cancellations.get? a = none) :
    Settles s { s with
      cancellations := s.cancellations.insert a receipt
      pairings := s.pairings.erase a } a where
  pairings := rfl
  agents := rfl
  tokens := rfl
  requests := rfl
  answers := rfl
  history _ _ := rfl
  cancellations d hd := by simp [Table.get?_insert hcancellations, hd]
  once := .inr ⟨hhistory, by simp [Table.get?_insert hcancellations]⟩

/-- Registering a Node whose Agent has accepted the candidate. -/
theorem finishTx_spec (h : s.Inv cipher) (hheld : Held cipher s a row b c)
    (hshown : Shown s a row.origin c n) :
    (finishTx a row chance).wp (fun _ t => t.Inv cipher ∧ s.Advance cipher t)
      (fun _ t => t = s) s := by
  simp only [finishTx, Tx.wp_transaction, Tx.wp_bind]
  refine wp_assertRow (fun latest hlatest hmatches => ?_) fun _ => trivial
  simp only [Tx.wp_require, Tx.wp_write]
  refine ⟨fun hcancelling => ?_, fun _ => trivial⟩
  refine Tx.wp_mono insertNode_spec (fun _ t₁ ht₁ => ?_) fun _ _ _ => trivial
  obtain ⟨hnode, installations₁, rfl⟩ := ht₁
  simp only [Tx.wp_read, Tx.wp_demand, id_eq]
  refine ⟨fun binding _ => ?_, fun _ => trivial⟩
  refine Tx.wp_mono updateInstallation_spec (fun _ t₂ ht₂ => ?_) fun _ _ _ => trivial
  obtain ⟨installations₂, rfl⟩ := ht₂
  refine ⟨fun hnone => ?_, fun _ => trivial⟩
  obtain ⟨-, hcancellations⟩ := h.unsettled hlatest
  have hsound := h.rows a latest hlatest
  have hdisposal : latest.disposalEnc = none := by
    have hsome := hsound.cancelling
    rw [hmatches.cancelling, hcancelling] at hsome
    exact Option.not_isSome_iff_eq_none.mp (by simp [← hsome])
  have hbootstrap : cipher.decrypt latest.bootstrapEnc = some b :=
    hmatches.bootstrapEnc ▸ hheld.bootstrap
  have hcandidate : cipher.decrypt latest.candidateEnc = some c :=
    hmatches.candidateEnc ▸ hheld.candidate
  have hleads : ∀ x y, latest.leads cipher x y → x = b ∧ y = c := by
    rintro x y (⟨hx, hy⟩ | ⟨⟨e, he, -⟩, -⟩)
    · exact ⟨(Option.some.inj (hbootstrap.symm.trans hx)).symm,
        (Option.some.inj (hcandidate.symm.trans hy)).symm⟩
    · rw [hdisposal] at he
      cases he
  have hclaim : (s.keyring cipher).claims a = some (latest.claim cipher) := by
    simp [Site.keyring, hlatest]
  have hconfirmed := hshown.confirmed h
  obtain ⟨hinv, hrel⟩ := h.settle hlatest (settles_registered hnone hcancellations)
    (fun _ x y hxy hne => by
      obtain ⟨rfl, rfl⟩ := hleads x y hxy
      exact hmatches.origin ▸ hconfirmed.below _ hclaim hmatches.origin x hxy hne)
    fun _ => .inr (.inl (by simp [Table.get?_insert hnone]))
  refine ⟨hinv, hrel, fun d x hd hx => ?_, fun d x hd hx => ?_⟩
  · have hda : d = a := by
      by_contra hne
      rw [Table.get?_insert hnone, if_neg hne, hd] at hx
      cases hx
    subst hda
    have hnodes : ∀ node, (s.nodes.insert row.nodeId node).get? latest.nodeId = some node := by
      intro node
      rw [hmatches.nodeId, Table.get?_insert hnode, if_pos rfl]
    refine ⟨latest, hlatest, ⟨_, hnodes _, hmatches.origin.symm, hmatches.candidateEnc.symm⟩, c, n,
      hcandidate, hmatches.origin ▸ hshown, fun hchanges => ?_⟩
    have htop : ∀ y, latest.leads cipher c y → y = c := fun y hy => (hleads c y hy).2
    rw [hmatches.origin] at hchanges ⊢
    exact hconfirmed.top _ hclaim hmatches.origin htop hchanges
  · rw [hd] at hx
    cases hx

/-- A rotation replaces the bootstrap token or the candidate. -/
theorem Row.leads_source {r : Row} {x y : String} (h : r.leads cipher x y) :
    cipher.decrypt r.bootstrapEnc = some x ∨ cipher.decrypt r.candidateEnc = some x := by
  rcases h with ⟨hx, -⟩ | ⟨-, hx⟩
  · exact .inl hx
  · exact hx

/-- Ending an attempt with a cancellation: once a rotation is announced, the Agent must have
neither the bootstrap token nor the candidate. -/
theorem finishCancel_spec {outcome : Outcome} (h : s.Inv cipher)
    (hphase : ∀ latest, s.pairings.get? a = some latest → row.Matches latest →
      latest.phase = .rotating → outcome = .discardedAfterRotation)
    (hgone : outcome = .discardedAfterRotation → ∀ latest, s.pairings.get? a = some latest →
      row.Matches latest → ∀ x,
        cipher.decrypt row.bootstrapEnc = some x ∨ cipher.decrypt row.candidateEnc = some x →
          (s.keyring cipher).key row.origin ≠ some x) :
    (finishCancel a row outcome chance).wp
      (fun _ t => (t.Inv cipher ∧ s.Advance cipher t) ∧ t.history = s.history ∧
        ∀ d x, s.cancellations.get? d = none → t.cancellations.get? d = some x →
          x.outcome = outcome)
      (fun _ _ => True) s := by
  rw [finishCancel, Tx.wp_bind]
  refine wp_assertRow (fun latest hlatest hmatches => ?_) fun _ => trivial
  simp only [Tx.wp_bind, Tx.wp_read, Tx.wp_require, Tx.wp_write, id_eq]
  refine ⟨fun hnone => ?_, fun _ => trivial⟩
  obtain ⟨hhistory, -⟩ := h.unsettled hlatest
  have hclaim : (s.keyring cipher).claims a = some (latest.claim cipher) := by
    simp [Site.keyring, hlatest]
  have hkey : outcome = .discardedAfterRotation → ∀ x,
      cipher.decrypt latest.bootstrapEnc = some x ∨ cipher.decrypt latest.candidateEnc = some x →
        (s.keyring cipher).key latest.origin ≠ some x := by
    intro houtcome x hx
    rw [hmatches.bootstrapEnc, hmatches.candidateEnc] at hx
    exact hmatches.origin ▸ hgone houtcome latest hlatest hmatches x hx
  have hsettles := settles_cancelled (row.cancellation outcome chance.now) hhistory hnone
  obtain ⟨hinv, hrel⟩ := h.settle hlatest hsettles
    (fun hrotating x y hxy _ =>
      hkey (hphase latest hlatest hmatches hrotating) x (Row.leads_source hxy))
    fun hrotating => .inr (.inr ⟨row.cancellation outcome chance.now,
      by simp [Table.get?_insert hnone], hphase latest hlatest hmatches hrotating⟩)
  have honly : ∀ d x, s.cancellations.get? d = none →
      (s.cancellations.insert a (row.cancellation outcome chance.now)).get? d = some x →
        d = a ∧ x.outcome = outcome := by
    intro d x hd hx
    rw [Table.get?_insert hnone] at hx
    split at hx
    · rename_i hda
      exact ⟨hda, (Option.some.inj hx) ▸ rfl⟩
    · rw [hd] at hx
      cases hx
  refine ⟨⟨hinv, hrel, fun d x hd hx => ?_, fun d x hd hx hdiscarded => ?_⟩, trivial,
    fun d x hd hx => (honly d x hd hx).2⟩
  · rw [hd] at hx
    cases hx
  · obtain ⟨rfl, houtcome⟩ := honly d x hd hx
    rw [houtcome] at hdiscarded
    refine ⟨latest, hlatest, fun x hx => ?_⟩
    rw [hsettles.keyring]
    obtain ⟨b, c, hb, hc, hbt, hct, -⟩ := (h.rows d latest hlatest).opens
    refine h.keyring.spend hclaim ?_ (hkey hdiscarded x hx)
    rcases hx with hx | hx
    · exact Option.some.inj (hb.symm.trans hx) ▸ hbt
    · exact Option.some.inj (hc.symm.trans hx) ▸ hct

/-- What a thread knows of an enrollment that it cancels. -/
structure Cancelling (cipher : Cipher) (s : Site) (a : String) (row : Row) (b c d : String) :
    Prop where
  held : Held cipher s a row b c
  cancelling : row.cancelling = true
  disposal : ∃ e, row.disposalEnc = some e ∧ cipher.decrypt e = some d
  announced : s.Announced a
  covered : ∀ x, x = b ∨ x = c → (s.keyring cipher).Covered a row.origin x d

/-- A cancellation goes on. -/
theorem Cancelling.later {d : String} (h : Cancelling cipher s a row b c d)
    (hrel : s.Onward cipher t) : Cancelling cipher t a row b c d where
  held := h.held.later hrel
  cancelling := h.cancelling
  disposal := h.disposal
  announced := hrel.announced a h.announced
  covered x hx := hrel.keyring.covered _ _ _ _ (h.covered x hx)

/-- Ending an attempt whose Agent has accepted the disposal token. -/
theorem discardTx_spec {d : String} (h : s.Inv cipher) (hheld : Cancelling cipher s a row b c d)
    (hshown : Shown s a row.origin d n) :
    (Tx.transaction (finishCancel a row .discardedAfterRotation chance)).wp
      (fun _ t => t.Inv cipher ∧ s.Advance cipher t) (fun _ t => t = s) s := by
  rw [Tx.wp_transaction]
  refine Tx.wp_mono (finishCancel_spec h (fun _ _ _ _ => rfl)
    fun _ latest hlatest hmatches x hx => ?_) (fun _ _ ht => ht.1) fun _ _ _ => rfl
  have hclaim : (s.keyring cipher).claims a = some (latest.claim cipher) := by
    simp [Site.keyring, hlatest]
  obtain ⟨e, he, hd⟩ := hheld.disposal
  have hleads : latest.leads cipher x d :=
    (hmatches.leads x d).mpr (.inr ⟨⟨e, he, hd⟩, hx⟩)
  obtain ⟨b', c', hb', hc', -, -, hdisposal⟩ := (h.rows a latest hlatest).opens
  obtain ⟨d', hd', -, hdb, hdc⟩ := hdisposal e (hmatches.disposalEnc.trans he)
  obtain rfl : d' = d := Option.some.inj (hd'.symm.trans hd)
  have hne : x ≠ d' := by
    rintro rfl
    rw [hmatches.bootstrapEnc] at hb'
    rw [hmatches.candidateEnc] at hc'
    rcases hx with hx | hx
    · exact hdb (Option.some.inj (hx.symm.trans hb'))
    · exact hdc (Option.some.inj (hx.symm.trans hc'))
  exact (hshown.confirmed h).below _ hclaim hmatches.origin x hleads hne

/-- A cancellation before a rotation was announced. -/
theorem withdraw_spec (h : s.Inv cipher) (hr : s.pairings.get? a = some row)
    (hphase : row.phase = .pending) :
    (withdraw a row chance).wp
      (fun row? t => (t.Inv cipher ∧ s.Advance cipher t) ∧ row? = none) (fun _ _ => True) s := by
  simp only [withdraw, Tx.wp_bind, Tx.wp_write, Tx.wp_pure]
  let f : Row → Row := fun r => { r with operationRevision := row.operationRevision + 1 }
  obtain ⟨hinv, hadvance⟩ := h.revise_alike (a := a) (f := f)
    fun _ _ => ⟨rfl, rfl, rfl, rfl, rfl, rfl⟩
  have hget : (s.updatePairing a f).pairings.get? a = some (f row) := by
    simp [Site.updatePairing, hr]
  refine Tx.wp_mono (finishCancel_spec hinv (fun latest hlatest _ hrotating => ?_)
    fun houtcome => ?_) (fun _ t ht => ?_) fun _ _ _ => trivial
  · obtain rfl := Option.some.inj (hget.symm.trans hlatest)
    have hpending : (f row).phase = .pending := hphase
    rw [hpending] at hrotating
    cases hrotating
  · cases houtcome
  · obtain ⟨⟨hinv', hadvance'⟩, hhistory, houtcome⟩ := ht
    refine ⟨⟨hinv', hadvance.onward.trans hadvance'.onward, fun d x hd hx => ?_,
      fun d x hd hx hdiscarded => ?_⟩, trivial⟩
    · have hnone : t.history.get? d = none := hhistory ▸ hd
      rw [hnone] at hx
      cases hx
    · rw [houtcome d x hd hx] at hdiscarded
      cases hdiscarded

/-- The intent to cancel is saved with a disposal token that is new, or was saved before. -/
theorem Site.Inv.intend {sealed d : String} {tokens : List String} {now : ℕ}
    (h : s.Inv cipher) (hr : s.pairings.get? a = some row) (hphase : row.phase = .rotating)
    (hd : cipher.decrypt sealed = some d)
    (hnew : row.disposalEnc = some sealed ∧ tokens = s.tokens ∨
      row.disposalEnc = none ∧ d ∉ s.tokens ∧ tokens = d :: s.tokens) :
    (Site.Inv cipher { s with
        pairings := s.pairings.update a (row.intended sealed now)
        tokens := tokens } ∧
      s.Advance cipher { s with
        pairings := s.pairings.update a (row.intended sealed now)
        tokens := tokens }) ∧
      ∃ b c d, Cancelling cipher { s with
        pairings := s.pairings.update a (row.intended sealed now)
        tokens := tokens } a (row.intended sealed now row) b c d := by
  let f := row.intended sealed now
  obtain ⟨b, c, hb, hc, hbt, hct, hdisposal⟩ := (h.rows a row hr).opens
  have htokens : s.tokens ⊆ tokens ∧ d ∈ tokens ∧ d ≠ b ∧ d ≠ c := by
    rcases hnew with ⟨he, rfl⟩ | ⟨-, hfresh, rfl⟩
    · obtain ⟨d', hd', hdt, hdb, hdc⟩ := hdisposal sealed he
      obtain rfl : d' = d := Option.some.inj (hd'.symm.trans hd)
      exact ⟨List.Subset.refl _, hdt, hdb, hdc⟩
    · exact ⟨List.subset_cons_self _ _, List.mem_cons_self,
        fun heq => hfresh (heq ▸ hbt), fun heq => hfresh (heq ▸ hct)⟩
  obtain ⟨hsub, hdt, hdb, hdc⟩ := htokens
  have hsound : (f row).Sound cipher tokens := by
    refine ⟨⟨b, c, hb, hc, hsub hbt, hsub hct, fun e he => ?_⟩, rfl, fun _ => hphase⟩
    obtain rfl : sealed = e := Option.some.inj he
    exact ⟨d, hd, hdt, hdb, hdc⟩
  have hwider : ∀ x y, row.leads cipher x y → (f row).leads cipher x y := by
    intro x y hxy
    refine hxy.imp_right fun hlast => ?_
    obtain ⟨⟨e, he, hy⟩, hx⟩ := hlast
    rcases hnew with ⟨hsealed, -⟩ | ⟨hnone, -⟩
    · exact ⟨⟨e, hsealed.symm.trans he, hy⟩, hx⟩
    · rw [hnone] at he
      cases he
  have hback : ∀ x y, (f row).leads cipher x y → y ∉ s.tokens ∨ row.leads cipher x y := by
    intro x y hxy
    rcases hxy with hfirst | ⟨⟨e, he, hy⟩, hx⟩
    · exact .inr (.inl hfirst)
    · obtain rfl : sealed = e := Option.some.inj he
      obtain rfl : d = y := Option.some.inj (hd.symm.trans hy)
      rcases hnew with ⟨hsealed, -⟩ | ⟨-, hfresh, -⟩
      · exact .inr (.inr ⟨⟨sealed, hsealed, hd⟩, hx⟩)
      · exact .inl hfresh
  have hinv := h.revise hr hsound rfl (fun _ => hphase) hwider hback hsub
  refine ⟨hinv, b, c, d, ?_⟩
  have hget : (s.pairings.update a f).get? a = some (f row) := by simp [hr]
  refine ⟨⟨hb, hc, .inr (by simp [Site.keyring, hr])⟩, rfl, ⟨sealed, rfl, hd⟩,
    .inl ⟨f row, hget, hphase⟩, fun x hx => ?_⟩
  refine covered_of_rotating hget hphase (.inr ⟨⟨sealed, rfl, hd⟩, ?_⟩)
  rcases hx with rfl | rfl
  · exact .inl hb
  · exact .inr hc

/-- The first transaction of {lit}`cancel` reads the row of a cancellation. -/
theorem cancelTx_spec (h : s.Inv cipher) (hfresh : chance.Fresh s) :
    (cancelTx cipher a chance).wp
      (fun row? t => (t.Inv cipher ∧ s.Advance cipher t) ∧
        ∀ row, row? = some row → ∃ b c d, Cancelling cipher t a row b c d)
      (fun _ t => t = s) s := by
  simp only [cancelTx, Tx.wp_transaction, Tx.wp_bind]
  apply wp_pending _ fun _ => trivial
  simp only [Tx.wp_read, id_eq]
  cases hget : s.pairings.get? a with
  | none =>
      dsimp only
      split
      · refine ⟨⟨h, .refl s⟩, fun _ hrow => ?_⟩
        cases hrow
      · split
        · trivial
        · trivial
  | some row =>
      simp only [Tx.wp_bind]
      refine wp_available ?_ fun _ => trivial
      simp only [Tx.wp_require]
      refine ⟨fun _ => ?_, fun _ => trivial⟩
      split
      · rename_i hpending
        refine Tx.wp_mono (withdraw_spec h hget hpending.1) (fun row? t ht => ?_)
          fun _ _ _ => trivial
        refine ⟨ht.1, fun row' hrow' => ?_⟩
        rw [ht.2] at hrow'
        cases hrow'
      · simp only [Pairing.intend, Tx.wp_bind, Tx.wp_require]
        refine ⟨fun hphase => ⟨fun _ => ?_, fun _ => trivial⟩, fun _ => trivial⟩
        cases hdisposal : row.disposalEnc with
        | some sealed =>
            simp only [sealDisposal, hdisposal, Tx.wp_pure, Tx.wp_write, Tx.wp_read]
            obtain ⟨b, c, hb, hc, hbt, hct, hopens⟩ := (h.rows a row hget).opens
            obtain ⟨d, hd, -⟩ := hopens sealed hdisposal
            obtain ⟨hinv, hheld⟩ := h.intend hget hphase hd (.inl ⟨hdisposal, rfl⟩)
            refine ⟨hinv, fun row' hrow' => ?_⟩
            rw [Site.updatePairing, Table.get?_update, if_pos rfl, hget, Option.map_some] at hrow'
            exact Option.some.inj hrow' ▸ hheld
        | none =>
            simp only [sealDisposal, hdisposal, Tx.wp_bind, Tx.wp_ofExcept, Tx.wp_pure, Tx.wp_write,
              Tx.wp_read]
            refine ⟨fun _ _ => ⟨fun _ _ => ?_, fun _ _ => trivial⟩, fun _ _ => trivial⟩
            obtain ⟨hinv, hheld⟩ := h.intend hget hphase
              (cipher.decrypt_encrypt chance.nonce chance.token)
              (.inr ⟨hdisposal, hfresh.1, rfl⟩)
            refine ⟨hinv, fun row' hrow' => ?_⟩
            rw [Site.updatePairing, Table.get?_update, if_pos rfl, hget, Option.map_some] at hrow'
            exact Option.some.inj hrow' ▸ hheld

/-- Sending a proper request keeps the keyring. -/
theorem sendRequest_spec {q : Request} (h : s.Inv cipher) (hq : Proper cipher s q) :
    (sendRequest q chance).wp
      (fun i t => (t.Inv cipher ∧ s.Advance cipher t) ∧ t.requests[i]? = some q)
      (fun _ t => t = s) s := by
  simp only [sendRequest, Tx.wp_bind, Tx.wp_write, Tx.wp_read]
  exact ⟨h.send hq, by simp⟩

/-- A body that was received was answered. -/
theorem receive_ok {q : Request} {reply : Reply} {body : Body}
    (h : receive q reply = .ok body) :
    ∃ nodeId installationId, reply = .answered body nodeId installationId := by
  cases reply with
  | failed status nodeId installationId =>
      simp only [receive] at h
      split at h <;> cases h
  | answered body' nodeId installationId =>
      simp only [receive] at h
      split at h
      · cases h
      · exact ⟨nodeId, installationId, by rw [Except.ok.inj h]⟩

/-- An answer that is awaited has been given. -/
theorem awaitAnswer_spec {q : Request} {i : ℕ} :
    (awaitAnswer q i chance).wp
      (fun body t => t = s ∧ ∃ answer ∈ s.answers, answer.request = i ∧
        ∃ nodeId installationId, answer.reply = .answered body nodeId installationId)
      (fun _ t => t = s) s := by
  simp only [awaitAnswer, Tx.wp_bind, Tx.wp_read]
  split
  · rename_i answer hdelivered
    obtain ⟨m, -, hm⟩ := Option.bind_eq_some_iff.mp hdelivered
    split
    · rename_i hi
      rw [Tx.wp_ofExcept]
      exact ⟨fun body hbody => ⟨rfl, answer, List.mem_of_getElem? hm, hi, receive_ok hbody⟩,
        fun _ _ => rfl⟩
    · trivial
  · trivial

end Transactions

/-! ## The calls -/

section Scripts

variable (cipher : Cipher)

/-- What the threads of the Hub keep; what is random is new. -/
def discipline : Discipline Chance Unit Site where
  inv := Site.Inv cipher
  step := Site.Advance cipher
  rel := Site.Onward cipher
  ok _ o s := o.Fresh s
  refl _ := .refl _
  sub _ _ := Site.Advance.onward
  trans _ _ _ := .trans

/-- The scripts of the Hub that keep the discipline, with what they return. -/
abbrev HubSafe {β : Type} (p : HubScript β) (q : β → Site → Prop) (s : Site) : Prop :=
  p.Safe (discipline cipher) q (fun _ _ => True) s

variable {cipher} {s t : Site} {a x b c d : String} {row : Row}

/-- An action that keeps the invariant, or raises and changes nothing. -/
theorem safe_perform {β : Type} {action : Chance → HubTx β} {q : β → Site → Prop}
    (h : ∀ t chance, t.Inv cipher → s.Onward cipher t → chance.Fresh t → (action chance).wp
      (fun y u => (u.Inv cipher ∧ t.Advance cipher u) ∧ ∀ v, u.Onward cipher v → q y v)
      (fun _ u => u = t) t) :
    HubSafe cipher (Script.perform () action) q s := by
  apply Script.Safe.perform
  intro t ht hlater chance hfresh
  apply Tx.wp_mono (h t chance ht hlater hfresh)
  · exact fun y u hu => ⟨hu.1.1, hu.1.2, fun v _ hv => hu.2 v hv⟩
  · rintro _ u rfl
    exact ⟨ht, .refl u, fun _ _ _ => trivial⟩

/-- A pure computation that raises or has a result. -/
theorem safe_ofExcept {β : Type} {y : Except PairError β} {q : β → Site → Prop}
    (h : ∀ z, y = .ok z → ∀ t, s.Onward cipher t → q z t) :
    HubSafe cipher (Script.ofExcept y) q s :=
  Script.Safe.ofExcept (fun z hz t _ hst => h z hz t hst) fun _ _ _ _ _ => trivial

/-- A function of a result. -/
theorem safe_map {β γ : Type} {f : β → γ} {p : HubScript β} {q : β → Site → Prop}
    (h : HubSafe cipher p q s) (hs : s.Inv cipher) :
    HubSafe cipher (f <$> p) (fun _ _ => True) s :=
  Script.Safe.bind (f := fun y => pure (f y)) h hs fun _ _ _ _ _ =>
    Script.Safe.pure fun _ _ _ => trivial

/-- A sealed text that opens was sealed. -/
theorem openSealed_ok {sealed y : String} (h : openSealed cipher sealed = .ok y) :
    cipher.decrypt sealed = some y := by
  rw [openSealed] at h
  cases hd : cipher.decrypt sealed with
  | none =>
      rw [hd] at h
      cases h
  | some z =>
      rw [hd] at h
      exact congrArg some (Except.ok.inj h)

/-- A check of a row is safe. -/
theorem safe_assert :
    HubSafe cipher (Script.perform () fun _ => assertRow a row) (fun _ _ => True) s := by
  apply safe_perform
  intro t chance ht _ _
  apply wp_assertRow
  · exact fun _ _ _ => ⟨⟨ht, .refl t⟩, fun _ _ => trivial⟩
  · exact fun _ => rfl

/-- An exchange that returns has shown a success to its credential. -/
theorem safe_exchange {order : Order} (hs : s.Inv cipher) (hknown : (s.keyring cipher).Known a)
    (hcovered : ∀ v, order = .rotateToken v → (s.keyring cipher).Covered a row.origin x v)
    (hannounced : order ≠ .health → s.Announced a) :
    HubSafe cipher (exchange a row x order) (fun _ t => ∃ n, Shown t a row.origin x n) s := by
  have hproper : Proper cipher s ⟨a, row.origin, x, order, row.nodeId, row.installationId⟩ :=
    ⟨hknown, hcovered, hannounced⟩
  apply Script.Safe.bind safe_assert hs
  intro _ t ht hst _
  apply Script.Safe.bind (q := fun (i : ℕ) t =>
    t.requests[i]? = some ⟨a, row.origin, x, order, row.nodeId, row.installationId⟩) _ ht
  · intro i u hu htu hi
    apply Script.Safe.bind (q := fun _ t => ∃ n, Shown t a row.origin x n) _ hu
    · intro body v hv _ hshown
      apply Script.Safe.bind safe_assert hv
      intro _ w _ hw _
      obtain ⟨n, hn⟩ := hshown
      exact Script.Safe.pure fun y _ hy => ⟨n, (hn.later hw).later hy⟩
    · apply safe_perform
      intro v chance hv huv _
      apply Tx.wp_mono awaitAnswer_spec
      · rintro body w ⟨rfl, answer, hanswer, hrequest, i', j', hreply⟩
        refine ⟨⟨hv, .refl w⟩, fun y hy => ⟨answer.changes, Shown.later ?_ hy⟩⟩
        exact ⟨answer, hanswer, _, body, i', j', hrequest ▸ huv.requests i _ hi, rfl, rfl, rfl,
          rfl, hreply⟩
      · exact fun _ _ => id
  · apply safe_perform
    intro u chance hu htu _
    apply Tx.wp_mono (sendRequest_spec hu ((hproper.later hst).later htu))
    · exact fun i v hv => ⟨hv.1, fun y hy => hy.requests i _ hv.2⟩
    · exact fun _ _ => id

/-- A probe of the health changes nothing. -/
theorem safe_probe (hs : s.Inv cipher) (hknown : (s.keyring cipher).Known a) :
    HubSafe cipher (exchange a row x .health) (fun _ t => ∃ n, Shown t a row.origin x n) s := by
  refine safe_exchange hs hknown (fun v hv => ?_) fun hne => absurd rfl hne
  cases hv

/-- The installation gets pinned. -/
theorem safe_pin (hs : s.Inv cipher) (hheld : Held cipher s a row b c) :
    HubSafe cipher (pin a row x) (fun row' t => Held cipher t a row' b c) s := by
  rw [pin]
  split
  · apply Script.Safe.bind (safe_probe hs hheld.known) hs
    intro body t ht hst _
    apply Script.Safe.bind (q := fun _ _ => True) (safe_ofExcept fun _ _ _ _ => trivial) ht
    intro installation u hu htu _
    apply safe_perform
    intro v chance hv huv _
    apply Tx.wp_mono (pinTx_spec hv (((hheld.later hst).later htu).later huv))
    · exact fun row' w hw => ⟨hw.1, fun y hy => hw.2.later hy⟩
    · exact fun _ _ => id
  · exact Script.Safe.pure fun t _ hst => hheld.later hst

/-- The rotation ends when the Agent has shown a success to the candidate. -/
theorem safe_rotate (hs : s.Inv cipher) (hheld : Held cipher s a row b c) :
    HubSafe cipher (rotate a row b c) (fun _ t => ∃ n, Shown t a row.origin c n) s := by
  rw [rotate]
  apply Script.Safe.bind (safe_probe hs hheld.known) hs
  intro body t ht hst _
  apply Script.Safe.bind (q := fun _ _ => True) (safe_ofExcept fun _ _ _ _ => trivial) ht
  intro _ u hu htu _
  have hheld' := (hheld.later hst).later htu
  apply Script.Safe.bind (q := fun _ v =>
    (v.keyring cipher).Covered a row.origin b c ∧ v.Announced a) _ hu
  · intro _ v hv huv hready
    have hknown : (v.keyring cipher).Known a := (hheld'.later huv).known
    have hexchange : HubSafe cipher (exchange a row b (.rotateToken c))
        (fun _ t => ∃ n, Shown t a row.origin b n) v := by
      refine safe_exchange hv hknown (fun z hz => ?_) fun _ => hready.2
      cases hz
      exact hready.1
    apply Script.Safe.bind hexchange hv
    exact fun _ w hw hvw _ => safe_probe hw (hvw.keyring.known a hknown)
  · apply safe_perform
    intro v chance hv huv _
    apply Tx.wp_mono (rotatingTx_spec hv (hheld'.later huv))
    · exact fun _ w hw => ⟨hw.1, fun y hy =>
        ⟨hy.keyring.covered _ _ _ _ hw.2.1, hy.announced a hw.2.2⟩⟩
    · exact fun _ _ => id

/-- The body of {lit}`retry` registers the Node. -/
theorem safe_enroll (hs : s.Inv cipher) (hheld : Held cipher s a row b c) :
    HubSafe cipher (enroll cipher a row) (fun _ _ => True) s := by
  rw [enroll]
  apply Script.Safe.bind (q := fun y _ => y = b) _ hs
  · rintro bootstrap t ht hst rfl
    apply Script.Safe.bind (q := fun y _ => y = c) _ ht
    · rintro candidate u hu htu rfl
      have hheld' := (hheld.later hst).later htu
      apply Script.Safe.bind (safe_pin hu hheld') hu
      intro row' v hv huv hheld''
      apply Script.Safe.bind (q := fun _ t => ∃ n, Shown t a row'.origin candidate n) _ hv
      · intro body w hw hvw hshown
        obtain ⟨n, hn⟩ := hshown
        apply Script.Safe.bind (q := fun _ _ => True) (safe_ofExcept fun _ _ _ _ => trivial) hw
        intro _ y hy hwy _
        apply safe_perform
        intro z chance hz hyz _
        apply Tx.wp_mono (finishTx_spec hz (((hheld''.later hvw).later hwy).later hyz)
          ((hn.later hwy).later hyz))
        · exact fun _ _ h => ⟨h, fun _ _ => trivial⟩
        · exact fun _ _ => id
      · apply Script.Safe.handle (safe_probe hv hheld''.known) hv
        intro e w hw hvw _
        split
        · exact safe_rotate hw (hheld''.later hvw)
        · exact Script.Safe.raise fun _ _ _ => trivial
    · exact safe_ofExcept fun y hy _ _ =>
        Option.some.inj ((openSealed_ok hy).symm.trans hheld.candidate)
  · exact safe_ofExcept fun y hy _ _ =>
      Option.some.inj ((openSealed_ok hy).symm.trans hheld.bootstrap)

/-- Noting an error is safe. -/
theorem safe_noteError {message : String} {onlyCancelling : Bool} :
    HubSafe cipher (Script.perform () (noteError a row message onlyCancelling))
      (fun _ _ => True) s := by
  apply safe_perform
  intro t chance ht _ _
  apply Tx.wp_mono (noteError_spec ht)
  · exact fun _ _ h => ⟨h, fun _ _ => trivial⟩
  · exact fun _ _ => id

/-- A retry is safe. -/
theorem safe_retry (hs : s.Inv cipher) :
    HubSafe cipher (retry cipher a) (fun _ _ => True) s := by
  rw [retry]
  apply Script.Safe.bind
    (q := fun row? t => ∀ row, row? = some row → ∃ b c, Held cipher t a row b c) _ hs
  · intro row? t ht _ hrow
    cases row? with
    | none => exact Script.Safe.pure fun _ _ _ => trivial
    | some row =>
        obtain ⟨b, c, hheld⟩ := hrow row rfl
        apply Script.Safe.handle (safe_enroll ht hheld) ht
        exact fun _ _ _ _ _ => safe_noteError
  · apply safe_perform
    intro t chance ht _ _
    apply Tx.wp_mono (retryTx_spec ht)
    · intro row? u hu
      refine ⟨hu.1, fun v huv row hrow => ?_⟩
      obtain ⟨b, c, hheld⟩ := hu.2 row hrow
      exact ⟨b, c, hheld.later huv⟩
    · exact fun _ _ => id

/-- A credential that was found is one of the saved ones. -/
theorem safe_findCredential {credentials : List String} (hs : s.Inv cipher)
    (hknown : (s.keyring cipher).Known a) :
    HubSafe cipher (findCredential cipher a row credentials)
      (fun x? _ => ∀ x, x? = some x → ∃ sealed ∈ credentials, cipher.decrypt sealed = some x)
      s := by
  induction credentials generalizing s with
  | nil =>
      refine Script.Safe.pure fun _ _ _ x hx => ?_
      cases hx
  | cons sealed rest ih =>
      rw [findCredential]
      apply Script.Safe.bind (q := fun y _ => cipher.decrypt sealed = some y) _ hs
      · intro credential t ht hst hcredential
        have hknown' := hst.keyring.known a hknown
        apply Script.Safe.bind (q := fun _ _ => True) _ ht
        · intro body? u hu htu _
          cases body? with
          | some body =>
              apply Script.Safe.bind (q := fun _ _ => True)
                (safe_ofExcept fun _ _ _ _ => trivial) hu
              intro _ v _ _ _
              refine Script.Safe.pure fun _ _ _ x hx => ?_
              exact ⟨sealed, List.mem_cons_self, hcredential.trans hx⟩
          | none =>
              apply Script.Safe.mono (ih hu (htu.keyring.known a hknown'))
              · intro x? v hx x hxx
                obtain ⟨sealed', hsealed', hd⟩ := hx x hxx
                exact ⟨sealed', List.mem_cons_of_mem _ hsealed', hd⟩
              · exact fun _ _ _ => trivial
        · refine Script.Safe.handle (safe_map (safe_probe ht hknown') ht) ht fun e u _ _ _ => ?_
          split
          · exact Script.Safe.pure fun _ _ _ => trivial
          · exact Script.Safe.raise fun _ _ _ => trivial
      · exact safe_ofExcept fun y hy _ _ => openSealed_ok hy

/-- Stopping the Agent. -/
theorem safe_makeIdle {body : Body} (hs : s.Inv cipher) (hheld : Cancelling cipher s a row b c d) :
    HubSafe cipher (makeIdle a row d body) (fun _ _ => True) s := by
  rw [makeIdle]
  split
  · exact Script.Safe.pure fun _ _ _ => trivial
  · have hexchange : HubSafe cipher (exchange a row d .idle)
        (fun _ t => ∃ n, Shown t a row.origin d n) s := by
      refine safe_exchange hs hheld.held.known (fun v hv => ?_) fun _ => hheld.announced
      cases hv
    apply Script.Safe.bind hexchange hs
    intro _ t ht hst _
    apply Script.Safe.mono (safe_probe ht (hst.keyring.known a hheld.held.known))
    · exact fun _ _ _ => trivial
    · exact fun _ _ _ => trivial

/-- The check of a revocation is safe. -/
theorem safe_requireRevoked {sealed : String} (hs : s.Inv cipher)
    (hknown : (s.keyring cipher).Known a) :
    HubSafe cipher (requireRevoked cipher a row sealed) (fun _ _ => True) s := by
  rw [requireRevoked]
  apply Script.Safe.bind (q := fun _ _ => True) (safe_ofExcept fun _ _ _ _ => trivial) hs
  intro credential t ht hst _
  apply Script.Safe.bind (q := fun _ _ => True) _ ht
  · exact fun _ _ _ _ _ => safe_ofExcept fun _ _ _ _ => trivial
  · refine Script.Safe.handle (safe_map (safe_probe ht (hst.keyring.known a hknown)) ht) ht
      fun e u _ _ _ => ?_
    split
    · exact Script.Safe.pure fun _ _ _ => trivial
    · exact Script.Safe.raise fun _ _ _ => trivial

/-- The Agent is rotated to the disposal token. -/
theorem safe_revoke (hs : s.Inv cipher) (hheld : Cancelling cipher s a row b c d)
    (hx : x ≠ d → x = b ∨ x = c) : HubSafe cipher (revoke a row x d) (fun _ _ => True) s := by
  rw [revoke]
  split
  · exact Script.Safe.pure fun _ _ _ => trivial
  · rename_i hne
    have hexchange : HubSafe cipher (exchange a row x (.rotateToken d))
        (fun _ t => ∃ n, Shown t a row.origin x n) s := by
      refine safe_exchange hs hheld.held.known (fun z hz => ?_) fun _ => hheld.announced
      cases hz
      exact hheld.covered x (hx hne)
    exact safe_map hexchange hs

/-- The body of {lit}`cancel` ends when the Agent has shown a success to the disposal token. -/
theorem safe_discard {sealed : String} (hs : s.Inv cipher)
    (hheld : Cancelling cipher s a row b c d) (hsealed : row.disposalEnc = some sealed) :
    HubSafe cipher (discard cipher a row sealed) (fun _ _ => True) s := by
  obtain ⟨e, he, hd⟩ := hheld.disposal
  obtain rfl : sealed = e := Option.some.inj (hsealed.symm.trans he)
  rw [discard]
  apply Script.Safe.bind (q := fun y _ => y = d) _ hs
  · rintro disposal t ht hst rfl
    have hheld₁ := hheld.later hst
    apply Script.Safe.bind (safe_findCredential ht hheld₁.held.known) ht
    intro current? u hu htu hfound
    have hheld₂ := hheld₁.later htu
    apply Script.Safe.bind (q := fun y _ => current? = some y) _ hu
    · intro current v hv huv hcurrent
      have hheld₃ := hheld₂.later huv
      have hsaved : current ≠ disposal → current = b ∨ current = c := by
        intro hne
        obtain ⟨saved, hsaved, hopens⟩ := hfound current hcurrent
        simp only [List.mem_cons, List.not_mem_nil, or_false] at hsaved
        rcases hsaved with rfl | rfl | rfl
        · exact absurd (Option.some.inj (hopens.symm.trans hd)) hne
        · exact .inr (Option.some.inj (hopens.symm.trans hheld.held.candidate))
        · exact .inl (Option.some.inj (hopens.symm.trans hheld.held.bootstrap))
      apply Script.Safe.bind (safe_revoke hv hheld₃ hsaved) hv
      intro _ w hw hvw _
      have hheld₄ := hheld₃.later hvw
      apply Script.Safe.bind (safe_probe hw hheld₄.held.known) hw
      intro body y hy hwy _
      apply Script.Safe.bind (q := fun _ _ => True) (safe_ofExcept fun _ _ _ _ => trivial) hy
      intro _ z hz hyz _
      have hheld₅ := (hheld₄.later hwy).later hyz
      apply Script.Safe.bind (safe_makeIdle hz hheld₅) hz
      intro body' y₁ hy₁ hzy₁ _
      apply Script.Safe.bind (q := fun _ _ => True) (safe_ofExcept fun _ _ _ _ => trivial) hy₁
      intro _ y₂ hy₂ hy₁₂ _
      have hheld₆ := (hheld₅.later hzy₁).later hy₁₂
      apply Script.Safe.bind (safe_requireRevoked hy₂ hheld₆.held.known) hy₂
      intro _ y₃ hy₃ hy₂₃ _
      have hheld₇ := hheld₆.later hy₂₃
      apply Script.Safe.bind (safe_requireRevoked hy₃ hheld₇.held.known) hy₃
      intro _ y₄ hy₄ hy₃₄ _
      have hheld₈ := hheld₇.later hy₃₄
      apply Script.Safe.bind (safe_probe hy₄ hheld₈.held.known) hy₄
      intro body'' y₅ hy₅ hy₄₅ hshown
      obtain ⟨n, hn⟩ := hshown
      apply Script.Safe.bind (q := fun _ _ => True) (safe_ofExcept fun _ _ _ _ => trivial) hy₅
      intro _ y₆ hy₆ hy₅₆ _
      apply safe_perform
      intro y₇ chance hy₇ hy₆₇ _
      apply Tx.wp_mono (discardTx_spec hy₇ (((hheld₈.later hy₄₅).later hy₅₆).later hy₆₇)
        ((hn.later hy₅₆).later hy₆₇))
      · exact fun _ _ h => ⟨h, fun _ _ => trivial⟩
      · exact fun _ _ => id
    · refine safe_ofExcept fun y hy _ _ => ?_
      cases current? with
      | none => cases hy
      | some current => exact congrArg some (Except.ok.inj hy)
  · exact safe_ofExcept fun y hy _ _ => Option.some.inj ((openSealed_ok hy).symm.trans hd)

/-- The calls of the Hub keep the discipline. -/
theorem safe_script (call : Call) (hs : s.Inv cipher) :
    HubSafe cipher (call.script cipher) (fun _ _ => True) s := by
  cases call with
  | pair code =>
      rw [Call.script]
      apply Script.Safe.bind (q := fun _ _ => True) _ hs
      · exact fun _ _ ht _ _ => safe_retry ht
      · apply safe_perform
        intro t chance ht _ hfresh
        apply Tx.wp_mono (beginTx_spec ht hfresh)
        · exact fun _ _ h => ⟨h, fun _ _ => trivial⟩
        · exact fun _ _ => id
  | retry attempt confirmRetry =>
      rw [Call.script]
      split
      · exact safe_retry hs
      · exact Script.Safe.raise fun _ _ _ => trivial
  | cancel attempt confirmCancel acknowledgeCredentialReset =>
      rw [Call.script, Pairing.cancel]
      split
      · apply Script.Safe.bind (q := fun row? t =>
          ∀ row, row? = some row → ∃ b c d, Cancelling cipher t attempt row b c d) _ hs
        · intro row? t ht _ hrow
          cases row? with
          | none => exact Script.Safe.pure fun _ _ _ => trivial
          | some row =>
              obtain ⟨b, c, d, hheld⟩ := hrow row rfl
              obtain ⟨sealed, hsealed, -⟩ := hheld.disposal
              have hdiscard := safe_discard ht hheld hsealed
              apply Script.Safe.handle (r := fun _ _ => True) _ ht
              · exact fun _ _ _ _ _ => safe_noteError
              · rw [hsealed]
                exact hdiscard
        · apply safe_perform
          intro t chance ht _ hfresh
          apply Tx.wp_mono (cancelTx_spec ht hfresh)
          · intro row? u hu
            refine ⟨hu.1, fun v huv row hrow => ?_⟩
            obtain ⟨b, c, d, hheld⟩ := hu.2 row hrow
            exact ⟨b, c, d, hheld.later huv⟩
          · exact fun _ _ => id
      · exact Script.Safe.raise fun _ _ _ => trivial

end Scripts

/-! ## Surroundings -/

/-- What the keyring and the messages depend on is the same. -/
structure Aside (s t : Site) : Prop where
  pairings : t.pairings = s.pairings
  history : t.history = s.history
  cancellations : t.cancellations = s.cancellations
  agents : t.agents = s.agents
  tokens : t.tokens = s.tokens
  requests : t.requests = s.requests
  answers : t.answers = s.answers

/-- Procedures beside the enrollment. -/
def aside : Frame Site where
  inv _ := True
  rel := Aside
  refl _ := ⟨rfl, rfl, rfl, rfl, rfl, rfl, rfl⟩
  trans _ _ _ h h' := ⟨h'.pairings.trans h.pairings, h'.history.trans h.history,
    h'.cancellations.trans h.cancellations, h'.agents.trans h.agents, h'.tokens.trans h.tokens,
    h'.requests.trans h.requests, h'.answers.trans h.answers⟩

section Surroundings

variable {cipher : Cipher} {s t : Site}

/-- Changes aside from the pairings keep the keyring. -/
theorem Site.Inv.aside (h : s.Inv cipher) (hst : Aside s t) :
    t.Inv cipher ∧ s.Advance cipher t := by
  have hkeyring : t.keyring cipher = s.keyring cipher := by
    simp only [Site.keyring, hst.pairings, hst.history, hst.cancellations, hst.agents, hst.tokens]
  have hrel : s.Onward cipher t := by
    refine ⟨hkeyring ▸ .refl _, fun i q hq => hst.requests ▸ hq, fun x hx => hst.answers ▸ hx,
      fun x hx => .inl (hst.answers ▸ hx), fun a x hx => hst.history ▸ hx,
      fun a x hx => hst.cancellations ▸ hx, fun a ha => ?_⟩
    rw [Site.Announced, hst.pairings, hst.history, hst.cancellations]
    exact ha
  refine ⟨h.follow (hkeyring ▸ h.keyring) hrel (fun a r hr => ?_) ?_ hst.requests hst.answers,
    hrel.advance hst.history hst.cancellations⟩
  · rw [hst.tokens]
    exact h.rows a r (hst.pairings ▸ hr)
  · rw [hst.history, hst.cancellations]
    exact h.apart

/-- A write to the tables of the registry. -/
theorem aside_write {f : Site → Site} (h : ∀ s, Aside s (f s)) :
    aside.Respects (Tx.write f : HubTx Unit) :=
  Frame.Keeps.write fun s _ => ⟨trivial, h s⟩

/-- Inserting a binding is aside from the pairings. -/
theorem aside_insertBinding {binding : String} {i : Binding} :
    aside.Respects (insertBinding binding i) :=
  Frame.Keeps.bind Frame.Keeps.look fun _ _ => Frame.Keeps.bind Frame.Keeps.require fun _ _ =>
    Frame.Keeps.bind Frame.Keeps.require fun _ _ => Frame.Keeps.bind Frame.Keeps.require fun _ _ =>
      aside_write fun _ => ⟨rfl, rfl, rfl, rfl, rfl, rfl, rfl⟩

/-- Registering a Node is aside from the pairings. -/
theorem aside_insertNode {nodeId binding : String} {node : Node} :
    aside.Respects (insertNode nodeId node binding) :=
  Frame.Keeps.bind Frame.Keeps.look fun _ _ => Frame.Keeps.bind Frame.Keeps.require fun _ _ =>
    Frame.Keeps.bind Frame.Keeps.require fun _ _ =>
      Frame.Keeps.bind (aside_write fun _ => ⟨rfl, rfl, rfl, rfl, rfl, rfl, rfl⟩) fun _ _ =>
        aside_insertBinding

/-- Filling in an installation is aside from the pairings. -/
theorem aside_updateInstallation {binding installationId : String} :
    aside.Respects (updateInstallation binding installationId) :=
  Frame.Keeps.bind Frame.Keeps.look fun _ _ => Frame.Keeps.bind Frame.Keeps.require fun _ _ =>
    Frame.Keeps.bind Frame.Keeps.require fun _ _ =>
      aside_write fun _ => ⟨rfl, rfl, rfl, rfl, rfl, rfl, rfl⟩

/-- Putting a Node is aside from the pairings. -/
theorem aside_putNode {nodeId binding : String} {node : Node} :
    aside.Respects (putNode nodeId node binding) := by
  refine Frame.Keeps.transaction (Frame.Keeps.bind Frame.Keeps.look fun _ _ =>
    Frame.Keeps.bind Frame.Keeps.require fun _ _ => Frame.Keeps.ite (fun _ => ?_) fun _ => ?_)
  · exact Frame.Keeps.bind Frame.Keeps.require fun _ _ =>
      Frame.Keeps.bind Frame.Keeps.require fun _ _ =>
        aside_write fun _ => ⟨rfl, rfl, rfl, rfl, rfl, rfl, rfl⟩
  · exact aside_insertNode

/-- Deleting a Node is aside from the pairings. -/
theorem aside_deleteNode {nodeId : String} {usage : Bool} :
    aside.Respects (deleteNode nodeId usage) :=
  Frame.Keeps.transaction <| Frame.Keeps.bind Frame.Keeps.look fun _ _ =>
    Frame.Keeps.bind Frame.Keeps.require fun _ _ => Frame.Keeps.bind Frame.Keeps.require fun _ _ =>
      aside_write fun _ => ⟨rfl, rfl, rfl, rfl, rfl, rfl, rfl⟩

/-- Observing an installation is aside from the pairings. -/
theorem aside_observe {binding installationId : String} :
    aside.Respects (observe binding installationId) :=
  Frame.Keeps.transaction <| Frame.Keeps.bind Frame.Keeps.look fun _ _ =>
    Frame.Keeps.bind Frame.Keeps.require fun _ _ => aside_updateInstallation

/-- Replacing an installation is aside from the pairings. -/
theorem aside_replaceInstallation
    {nodeId origin tokenEnc dataAddress agentId installationId binding : String} :
    aside.Respects (replaceInstallation nodeId origin tokenEnc dataAddress agentId installationId
      binding) :=
  Frame.Keeps.transaction <| Frame.Keeps.bind Frame.Keeps.look fun _ _ =>
    Frame.Keeps.bind Frame.Keeps.demand fun _ _ => Frame.Keeps.bind Frame.Keeps.require fun _ _ =>
      Frame.Keeps.bind (aside_write fun _ => ⟨rfl, rfl, rfl, rfl, rfl, rfl, rfl⟩) fun _ _ =>
        Frame.Keeps.bind aside_insertBinding fun _ _ =>
          Frame.Keeps.bind Frame.Keeps.require fun _ _ =>
            Frame.Keeps.bind Frame.Keeps.require fun _ _ =>
              aside_write fun _ => ⟨rfl, rfl, rfl, rfl, rfl, rfl, rfl⟩

/-- Reserving a target is aside from the pairings. -/
theorem aside_reserveTarget {attempt : String} {target : Option (String × String)} :
    aside.Respects (reserveTarget attempt target) := by
  refine Frame.Keeps.transaction (Frame.Keeps.bind Frame.Keeps.look fun s _ => ?_)
  cases target with
  | none => exact aside_write fun _ => ⟨rfl, rfl, rfl, rfl, rfl, rfl, rfl⟩
  | some target =>
      exact Frame.Keeps.bind Frame.Keeps.require fun _ _ =>
        aside_write fun _ => ⟨rfl, rfl, rfl, rfl, rfl, rfl, rfl⟩

/-- What happens outside of the calls keeps the discipline, too. -/
theorem safe_happen (e : Surroundings) (h : s.Inv cipher) :
    (e.happen s).Inv cipher ∧ s.Advance cipher (e.happen s) := by
  have haside : ∀ m : HubTx Unit, aside.Respects m →
      (m s).2.Inv cipher ∧ s.Advance cipher (m s).2 :=
    fun m hm => h.aside (hm.later trivial).2
  cases e with
  | served request service => exact h.served request service
  | installed origin token => exact h.installed origin token
  | put nodeId node binding => exact haside _ aside_putNode
  | deleted nodeId usage => exact haside _ aside_deleteNode
  | observed binding installationId => exact haside _ aside_observe
  | replaced nodeId origin tokenEnc dataAddress agentId installationId binding =>
      exact haside _ aside_replaceInstallation
  | reserved attempt target => exact haside _ aside_reserveTarget

end Surroundings

/-! ## Runs -/

/-- The Hub with its calls under way, the Agents and the messages. -/
abbrev System : Type 1 :=
  Pool Call Chance Unit Site PairError Unit

/-- What can happen to the Hub and the Agents. -/
abbrev Event : Type :=
  PoolEvent Call Chance Surroundings

/-- A Hub that has not enrolled a Node, without Agents. -/
def start (nodes : Table String Node) (installations : Table String Binding)
    (replacements : Table String (String × String)) : System :=
  Pool.start
    { pairings := .empty
      history := .empty
      cancellations := .empty
      nodes := nodes
      installations := installations
      replacements := replacements
      agents := .empty
      tokens := []
      requests := []
      answers := [] }

/-- Calls begin and go on, the Hub crashes, Agents serve requests and get new tokens, and
the registry changes.  What is random is new. -/
def Step (cipher : Cipher) : System → Event → System → Prop :=
  Guarded (Pool.Step (Call.script cipher) Surroundings.happen) (Pool.Allowed (discipline cipher).ok)

/-! ### An Agent that is enrolled -/

section Edge

/-- Whether inputs are new can be computed. -/
instance decidableOk (n : Unit) (o : Chance) (s : Site) :
    Decidable ((discipline plainCipher).ok n o s) :=
  Chance.decidableFresh o s

/-- What happens if it may. -/
def proceed (w : System) (e : Event) : Option System :=
  if w.Allowed (discipline plainCipher).ok e then
    w.next (Call.script plainCipher) Surroundings.happen e
  else none

/-- The Hub after some events. -/
def after (w : System) (es : List Event) : System :=
  (es.foldlM proceed w).getD w

/-- Events that are carried out form a run. -/
theorem run_after {w : System} {es : List Event} (h : (es.foldlM proceed w).isSome = true) :
    Run (Step plainCipher) w es (after w es) := by
  obtain ⟨w', hw'⟩ := Option.isSome_iff_exists.mp h
  rw [after, hw', Option.getD_some]
  exact Run.of_guarded_eval hw'

/-- Random ids and tokens. -/
def hexId (digit : Char) : String := String.ofList (List.replicate 32 digit)
def edgeToken (letter : Char) : String := "dkn_" ++ String.ofList (List.replicate 36 letter)

/-- A fresh Agent that is stopped. -/
def edgeHealth : Health where
  service := "DARK XRAY NODE"
  agentOnly := true
  installationIdentity := some 1
  nodeId := "edge"
  installationId := hexId 'd'
  writesEnabled := true
  orderedControl := some 1
  receiptPersisted := some false
  coreState := "stopped"
  appliedRevision := some 0
  inbounds := some 0
  managedClients := some 0
  replacementPrepare := some 1
  coreError := ""
  maintenanceError := ""
  effectiveRunning := some false
  manualStop := some true

/-- The inputs of an action; {lit}`round` makes the random ones. -/
def edgeChance (round : Char) (delivered : Option ℕ) : Chance :=
  ⟨1, hexId round, hexId round, edgeToken round, 0, delivered⟩

/-- A thread acts, or receives an answer; the Agent serves a request. -/
def acts (thread : ℕ) (round : Char) : Event := .run thread (edgeChance round none)
def gets (round : Char) (answer : ℕ) : Event := .run 0 (edgeChance round (some answer))
def serves (request : ℕ) : Event :=
  .outside (.served request (.carried edgeHealth true "edge" (hexId 'd')))

/-- An exchange up to its answer. -/
def exchanges (round : Char) (request answer : ℕ) : List Event :=
  [acts 0 round, acts 0 round, serves request, gets round answer]

/-- The pair code of the Agent. -/
def edgeCode : PairCode := ⟨"edge", "Edge", "https://edge", edgeToken 'x', "edge", 1, true⟩

/-- An Agent has been installed. -/
def edgeInstalled : System :=
  after (start .empty .empty .empty) [.outside (.installed "https://edge" (edgeToken 'x'))]

/-- The rotation has been sent to the Agent. -/
def edgeRotating : System :=
  after edgeInstalled ([.enter (.pair edgeCode), acts 0 'a', acts 0 'b'] ++ exchanges 'b' 0 0 ++
    [acts 0 'b', acts 0 'b'] ++ exchanges 'b' 1 1 ++ exchanges 'b' 2 2 ++
    [acts 0 'b', acts 0 'b', acts 0 'b', acts 0 'b'])

/-- The reply to the rotation is lost and the Hub crashes; it probes the candidate. -/
def edgeProbed : System :=
  after edgeRotating ([serves 3, .crash, .enter (.retry (hexId 'a') true), acts 0 'b'] ++
    exchanges 'b' 4 4 ++ [acts 0 'b'])

/-- Or the enrollment is cancelled, up to its last transaction. -/
def edgeRevoked : System :=
  after edgeRotating ([serves 3, .crash, .enter (.cancel (hexId 'a') true true), acts 0 'b'] ++
    exchanges 'c' 4 4 ++ exchanges 'c' 5 5 ++ [acts 0 'c'] ++ exchanges 'c' 6 6 ++ [acts 0 'c'] ++
    exchanges 'c' 7 7 ++ [acts 0 'c'] ++ exchanges 'c' 8 8 ++ exchanges 'c' 9 9 ++
    exchanges 'c' 10 10 ++ [acts 0 'c'])

/-- Or it is cancelled before that. -/
def edgeWithdrawn : System :=
  after edgeInstalled [.enter (.pair edgeCode), acts 0 'a', acts 0 'b', acts 0 'b', acts 0 'b',
    .enter (.cancel (hexId 'a') true true), acts 1 'b']

/-- An event that is carried out is a step. -/
theorem step_proceed {w : System} {e : Event} (h : (proceed w e).isSome = true) :
    Step plainCipher w e ((proceed w e).getD w) := by
  obtain ⟨w', hw'⟩ := Option.isSome_iff_exists.mp h
  rw [hw', Option.getD_some]
  rw [proceed] at hw'
  split at hw'
  · rename_i hallowed
    exact ⟨hw', hallowed⟩
  · cases hw'

/-- The Agent is installed. -/
theorem run_edgeInstalled : Run (Step plainCipher) (start .empty .empty .empty)
    [.outside (.installed "https://edge" (edgeToken 'x'))] edgeInstalled :=
  run_after (by decide +kernel)

/-- The rotation is reached. -/
theorem run_edgeRotating : ∃ es, Run (Step plainCipher) edgeInstalled es edgeRotating :=
  ⟨_, run_after (by decide +kernel)⟩

end Edge

section Runs

variable {cipher : Cipher} {nodes : Table String Node} {installations : Table String Binding}
  {replacements : Table String (String × String)} {es fs : List Event} {e : Event}
  {w w' w'' : System} {a : String}

/-- The threads of the Hub keep the discipline. -/
def System.Safe (cipher : Cipher) (w : System) : Prop :=
  Pool.Safe (discipline cipher) (fun _ _ _ => True) (fun _ _ _ => True) w

/-- The site begins safe. -/
theorem safe_start : (start nodes installations replacements).Safe cipher := by
  apply Pool.safe_start
  refine ⟨⟨?_, ?_, ?_, ?_⟩, ?_, ?_, ?_, ?_⟩
  · intro a c a' c' hc
    cases hc
  · intro a c hc
    cases hc
  · intro o x hx
    cases hx
  · intro a ha
    simp [Site.keyring] at ha
  · intro a r hr
    cases hr
  · exact fun a ha => absurd rfl ha
  · exact fun q hq => (List.not_mem_nil hq).elim
  · exact fun x hx => (List.not_mem_nil hx).elim

/-- What one event does to the Hub and the Agents. -/
theorem System.Safe.step (h : w.Safe cipher) (hstep : Step cipher w e w') :
    w'.Safe cipher ∧ w.store.Advance cipher w'.store :=
  Pool.Safe.next h (fun k _ hs => safe_script k hs) (fun e _ hs => safe_happen e hs) hstep.1 hstep.2

/-- Every run keeps the site safe, and its keyring onward. -/
theorem System.Safe.run (h : w.Safe cipher) (hrun : Run (Step cipher) w es w') :
    w'.Safe cipher ∧ w.store.Onward cipher w'.store :=
  Pool.Safe.run h (fun k _ hs => safe_script k hs) (fun e _ hs => safe_happen e hs) hrun

/-- Rotations that were sent were announced, and a withdrawn attempt has announced none. -/
theorem System.Safe.withdrawn (h : w.Safe cipher) {x : Cancellation}
    (hx : w.store.cancellations.get? a = some x) (houtcome : x.outcome = .withdrawnBeforeRotation)
    {q : Request} (hq : q ∈ w.store.requests) (ha : q.attempt = a) : q.order = .health := by
  by_contra hne
  rcases (h.inv.requests q hq).announced hne with ⟨r, hr, -⟩ | hhistory | ⟨x', hx', hdiscarded⟩
  · obtain ⟨-, hnone⟩ := h.inv.unsettled (ha ▸ hr)
    rw [hnone] at hx
    cases hx
  · rw [h.inv.apart a (ha ▸ hhistory)] at hx
    cases hx
  · rw [ha, hx] at hx'
    rw [← Option.some.inj hx', houtcome] at hdiscarded
    cases hdiscarded

/-- Over every interleaving of enrollments, retries and cancellations with lost, late and
repeated exchanges, crashes and other changes of the registry: an attempt is pending, paired
or cancelled, but never two of these; once it is paired or cancelled it stays so; and for an
attempt that is withdrawn the Hub has sent and will send nothing but probes. -/
theorem pairing_settles_once
    (hrun : Run (Step cipher) (start nodes installations replacements) es w)
    (hlater : Run (Step cipher) w fs w') :
    (w.store.history.get? a ≠ none →
        w.store.cancellations.get? a = none ∧ w.store.pairings.get? a = none) ∧
      (w.store.cancellations.get? a ≠ none → w.store.pairings.get? a = none) ∧
      (∀ x, w.store.history.get? a = some x → w'.store.history.get? a = some x) ∧
      (∀ x, w.store.cancellations.get? a = some x → w'.store.cancellations.get? a = some x) ∧
      ∀ x, w.store.cancellations.get? a = some x → x.outcome = .withdrawnBeforeRotation →
        ∀ q ∈ w'.store.requests, q.attempt = a → q.order = .health := by
  obtain ⟨hsafe, -⟩ := safe_start.run hrun
  obtain ⟨hsafe', honward⟩ := hsafe.run hlater
  have hpending : ∀ r, w.store.pairings.get? a = some r →
      w.store.history.get? a = none ∧ w.store.cancellations.get? a = none :=
    fun r hr => hsafe.inv.unsettled hr
  refine ⟨fun hhistory => ⟨hsafe.inv.apart a hhistory, ?_⟩, fun hcancelled => ?_,
    honward.history a, honward.cancellations a, fun x hx houtcome q hq ha => ?_⟩
  · by_contra hrow
    obtain ⟨r, hr⟩ := Option.ne_none_iff_exists'.mp hrow
    exact hhistory (hpending r hr).1
  · by_contra hrow
    obtain ⟨r, hr⟩ := Option.ne_none_iff_exists'.mp hrow
    exact hcancelled (hpending r hr).2
  · exact hsafe'.withdrawn (honward.cancellations a x hx) houtcome hq ha

/-- A reply to a probe that arrives after the withdrawal. -/
theorem pairing_settles_once_withdrawn :
    ∃ fs w, Run (Step plainCipher) edgeWithdrawn fs w ∧ w.store.requests.length = 1 ∧
      (∀ q ∈ w.store.requests, q.attempt = hexId 'a' → q.order = .health) := by
  have hrun : Run (Step plainCipher) edgeInstalled _ edgeWithdrawn :=
    run_after (by decide +kernel)
  obtain ⟨hsome, hevents, hsent⟩ :
      (edgeWithdrawn.store.cancellations.get? (hexId 'a')).map Cancellation.outcome =
          some .withdrawnBeforeRotation ∧
        ([serves 0, gets 'b' 0, acts 0 'b', acts 0 'b', .answer 0].foldlM proceed
          edgeWithdrawn).isSome = true ∧
        (after edgeWithdrawn [serves 0, gets 'b' 0, acts 0 'b', acts 0 'b',
          .answer 0]).store.requests.length = 1 := by
    decide +kernel
  have hlater := run_after hevents
  obtain ⟨x, hx, houtcome⟩ := Option.map_eq_some_iff.mp hsome
  refine ⟨_, _, hlater, hsent, ?_⟩
  exact (pairing_settles_once (run_edgeInstalled.append hrun) hlater).2.2.2.2 x hx houtcome

/-- A request changes the token of an Agent only to one that the Hub holds, in the journal of
the pending enrollment of which the request is: requests of attempts that have ended do not
change it any more. -/
theorem pairing_keeps_credential
    (hrun : Run (Step cipher) (start nodes installations replacements) es w) {q : Request}
    {agent : Agent} {service : Service} (hq : q ∈ w.store.requests)
    (hagent : w.store.agents.get? q.origin = some agent)
    (hchange : (serve agent.token q service).2 ≠ agent.token) :
    ∃ r sealed, w.store.pairings.get? q.attempt = some r ∧ r.phase = .rotating ∧
      r.origin = q.origin ∧ (r.candidateEnc = sealed ∨ r.disposalEnc = some sealed) ∧
      cipher.decrypt sealed = some (serve agent.token q service).2 := by
  obtain ⟨hsafe, -⟩ := safe_start.run hrun
  rcases serve_cases agent.token q service with ⟨hsame, -⟩ | ⟨hauth, horder⟩
  · exact absurd hsame hchange
  · have hkey : (w.store.keyring cipher).key q.origin = some q.auth := by
      simp [Site.keyring, hagent, hauth]
    obtain ⟨c, hc, hlock, hactive, hleads⟩ :=
      ((hsafe.inv.requests q hq).covered _ horder).effective hkey
        fun heq => hchange (heq.symm.trans hauth)
    obtain ⟨r, hr, rfl⟩ := Option.map_eq_some_iff.mp hc
    rcases hleads with ⟨-, hopens⟩ | ⟨⟨sealed, hsealed, hopens⟩, -⟩
    · exact ⟨r, r.candidateEnc, hr, hactive, hlock, .inl rfl, hopens⟩
    · exact ⟨r, sealed, hr, hactive, hlock, .inr hsealed, hopens⟩

/-- The rotation of the example is under way. -/
theorem pairing_keeps_credential_edge :
    ∃ r sealed, edgeRotating.store.pairings.get? (hexId 'a') = some r ∧
      (r.candidateEnc = sealed ∨ r.disposalEnc = some sealed) ∧
      plainCipher.decrypt sealed = some (edgeToken 'a') := by
  obtain ⟨es, hrun⟩ := run_edgeRotating
  obtain ⟨hq, hagent⟩ :
      (⟨hexId 'a', "https://edge", edgeToken 'x', .rotateToken (edgeToken 'a'), "edge",
          hexId 'd'⟩ : Request) ∈ edgeRotating.store.requests ∧
        edgeRotating.store.agents.get? "https://edge" = some ⟨edgeToken 'x', 1⟩ := by
    decide +kernel
  have hchange : (serve (edgeToken 'x') ⟨hexId 'a', "https://edge", edgeToken 'x',
      .rotateToken (edgeToken 'a'), "edge", hexId 'd'⟩
      (.carried edgeHealth true "edge" (hexId 'd'))).2 ≠ edgeToken 'x' := by
    decide +kernel
  obtain ⟨r, sealed, hr, -, -, hsealed, hopens⟩ :=
    pairing_keeps_credential (run_edgeInstalled.append hrun) hq hagent hchange
  exact ⟨r, sealed, hr, hsealed, hopens⟩

/-- When an attempt gets paired, the Node is registered with the token that its Agent has,
unless the token was set locally since the attempt began. -/
theorem paired_credential_current
    (hrun : Run (Step cipher) (start nodes installations replacements) es w)
    (hpairing : w.store.pairings.get? a = none) (hhistory : w.store.history.get? a = none)
    (hcancellation : w.store.cancellations.get? a = none)
    (hlater : Run (Step cipher) w fs w') (hstep : Step cipher w' e w'') {r : Row} {x : Receipt}
    (hr : w'.store.pairings.get? a = some r) (hx : w''.store.history.get? a = some x)
    (hchanges : (w''.store.keyring cipher).changes r.origin =
      (w.store.keyring cipher).changes r.origin) :
    ∃ agent node, w''.store.agents.get? r.origin = some agent ∧
      w''.store.nodes.get? r.nodeId = some node ∧ node.origin = r.origin ∧
      cipher.decrypt node.tokenEnc = some agent.token := by
  obtain ⟨hsafe, -⟩ := safe_start.run hrun
  obtain ⟨hsafe', honward⟩ := hsafe.run hlater
  obtain ⟨-, hadvance⟩ := hsafe'.step hstep
  obtain ⟨r', hregistered⟩ := hadvance.registered a x (hsafe'.inv.unsettled hr).1 hx
  obtain rfl : r = r' := Option.some.inj (hr.symm.trans hregistered.pairing)
  obtain ⟨node, hnode, horigin, htoken⟩ := hregistered.node
  obtain ⟨c, n, hc, hshown, hkey⟩ := hregistered.shown
  have hconfirmed := hshown.confirmed hsafe'.inv
  -- the success was reported after the attempt had begun
  have hrecent : (w.store.keyring cipher).changes r.origin ≤ n := by
    obtain ⟨answer, hanswer, q, body, i, j, hq, hattempt, ho, -, rfl, hreply⟩ := hshown
    rcases honward.recent answer hanswer with hold | ⟨q', hq', hle⟩
    · obtain ⟨q', hq', hconfirmed'⟩ := hsafe.inv.answers answer hold body i j hreply
      obtain rfl : q = q' := Option.some.inj (hq.symm.trans (honward.requests _ q' hq'))
      have hknown := hconfirmed'.known
      rw [hattempt] at hknown
      rcases hknown with hclosed | hclaim
      · simp [Site.keyring, hhistory, hcancellation] at hclosed
      · simp [Site.keyring, hpairing] at hclaim
    · obtain rfl : q = q' := Option.some.inj (hq.symm.trans hq')
      exact ho ▸ hle
  have hn : (w''.store.keyring cipher).changes r.origin = n := by
    have hmono := hadvance.onward.keyring.changes r.origin
    have hle := hconfirmed.changes
    omega
  obtain ⟨agent, hagent, hagent'⟩ := Option.map_eq_some_iff.mp (hkey hn)
  exact ⟨agent, node, hagent, hnode, horigin, by rw [htoken, hc, hagent']⟩

/-- The reply to the rotation is lost, and the Hub crashes before it registers the Node. -/
theorem paired_credential_current_edge :
    ∃ w agent node, Step plainCipher edgeProbed (acts 0 'b') w ∧
      w.store.agents.get? "https://edge" = some agent ∧ w.store.nodes.get? "edge" = some node ∧
      plainCipher.decrypt node.tokenEnc = some agent.token := by
  obtain ⟨es, hrotating⟩ := run_edgeRotating
  have hprobed : Run (Step plainCipher) edgeRotating _ edgeProbed := run_after (by decide +kernel)
  obtain ⟨hevent, hsome, hpaired, hchanges⟩ :
      (proceed edgeProbed (acts 0 'b')).isSome = true ∧
        (edgeProbed.store.pairings.get? (hexId 'a')).map (fun r => (r.origin, r.nodeId)) =
          some ("https://edge", "edge") ∧
        (((proceed edgeProbed (acts 0 'b')).getD edgeProbed).store.history.get?
          (hexId 'a')).isSome = true ∧
        ((((proceed edgeProbed (acts 0 'b')).getD edgeProbed).store.keyring
          plainCipher).changes "https://edge") =
            (edgeInstalled.store.keyring plainCipher).changes "https://edge" := by
    decide +kernel
  have hstep := step_proceed hevent
  obtain ⟨r, hr, hnames⟩ := Option.map_eq_some_iff.mp hsome
  obtain ⟨horigin, hnode⟩ := Prod.mk.inj hnames
  obtain ⟨x, hx⟩ := Option.isSome_iff_exists.mp hpaired
  obtain ⟨agent, node, hagent, hregistered, -, htoken⟩ := paired_credential_current
    run_edgeInstalled (by decide +kernel) (by decide +kernel) (by decide +kernel)
    (hrotating.append hprobed) hstep hr hx (horigin ▸ hchanges)
  exact ⟨_, agent, node, hstep, horigin ▸ hagent, hnode ▸ hregistered, htoken⟩

/-- Once an enrollment is discarded, its Agent never again has the bootstrap token or the
candidate, whatever is still under way. -/
theorem discarded_credential_dead
    (hrun : Run (Step cipher) (start nodes installations replacements) es w)
    (hstep : Step cipher w e w') {r : Row} {x : Cancellation}
    (hr : w.store.pairings.get? a = some r) (hx : w'.store.cancellations.get? a = some x)
    (houtcome : x.outcome = .discardedAfterRotation) (hlater : Run (Step cipher) w' fs w'')
    {agent : Agent} (hagent : w''.store.agents.get? r.origin = some agent) :
    cipher.decrypt r.bootstrapEnc ≠ some agent.token ∧
      cipher.decrypt r.candidateEnc ≠ some agent.token := by
  obtain ⟨hsafe, -⟩ := safe_start.run hrun
  obtain ⟨hsafe', hadvance⟩ := hsafe.step hstep
  obtain ⟨-, honward⟩ := hsafe'.run hlater
  obtain ⟨r', hdiscarded⟩ :=
    hadvance.discarded a x (hsafe.inv.unsettled hr).2 hx houtcome
  obtain rfl : r = r' := Option.some.inj (hr.symm.trans hdiscarded.pairing)
  have hkey : (w''.store.keyring cipher).key r.origin = some agent.token := by
    simp [Site.keyring, hagent]
  exact ⟨fun heq => (honward.keyring.spent _ _ (hdiscarded.spent _ (.inl heq))).key hkey,
    fun heq => (honward.keyring.spent _ _ (hdiscarded.spent _ (.inr heq))).key hkey⟩

/-- The rotation of the example is served again after the enrollment was discarded, and once
more after the Agent was reset. -/
theorem discarded_credential_dead_edge :
    ∃ w w' fs agent, Step plainCipher edgeRevoked (acts 0 'c') w ∧
      Run (Step plainCipher) w fs w' ∧ w'.store.agents.get? "https://edge" = some agent ∧
      agent.token ≠ edgeToken 'x' ∧ agent.token ≠ edgeToken 'a' := by
  obtain ⟨es, hrotating⟩ := run_edgeRotating
  have hrevoked : Run (Step plainCipher) edgeRotating _ edgeRevoked := run_after (by decide +kernel)
  obtain ⟨hevent, hrow, hreceipt, hevents, hsome⟩ :
      (proceed edgeRevoked (acts 0 'c')).isSome = true ∧
        (edgeRevoked.store.pairings.get? (hexId 'a')).map
          (fun r => (r.origin, r.bootstrapEnc, r.candidateEnc)) =
            some ("https://edge", edgeToken 'x', edgeToken 'a') ∧
        (((proceed edgeRevoked (acts 0 'c')).getD edgeRevoked).store.cancellations.get?
          (hexId 'a')).map Cancellation.outcome = some .discardedAfterRotation ∧
        ([serves 3, .outside (.installed "https://edge" (edgeToken 'e')), serves 3].foldlM proceed
          ((proceed edgeRevoked (acts 0 'c')).getD edgeRevoked)).isSome = true ∧
        ((after ((proceed edgeRevoked (acts 0 'c')).getD edgeRevoked)
          [serves 3, .outside (.installed "https://edge" (edgeToken 'e')),
            serves 3]).store.agents.get? "https://edge").isSome = true := by
    decide +kernel
  have hstep := step_proceed hevent
  have hlater := run_after hevents
  obtain ⟨r, hr, hnames⟩ := Option.map_eq_some_iff.mp hrow
  obtain ⟨horigin, htokens⟩ := Prod.mk.inj hnames
  obtain ⟨hbootstrap, hcandidate⟩ := Prod.mk.inj htokens
  obtain ⟨x, hx, houtcome⟩ := Option.map_eq_some_iff.mp hreceipt
  obtain ⟨agent, hagent⟩ := Option.isSome_iff_exists.mp hsome
  obtain ⟨hx', ha'⟩ := discarded_credential_dead
    ((run_edgeInstalled.append hrotating).append hrevoked) hstep hr hx houtcome hlater
    (by rw [horigin, hagent])
  refine ⟨_, _, _, agent, hstep, hlater, hagent, fun heq => hx' ?_, fun heq => ha' ?_⟩
  · rw [hbootstrap, heq]
    rfl
  · rw [hcandidate, heq]
    rfl

end Runs

end Pairing
end Nodes
end DarkXray
