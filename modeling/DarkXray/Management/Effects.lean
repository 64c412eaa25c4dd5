import DarkXray.Library.Frames
import DarkXray.Management.Reconciler
import DarkXray.Policy.Conservation

/-!
# What the manager does to one client

The calls that a tick makes for one client touch that client only: its row, its record in the
core, its meters and its policy.  Of the other clients they change nothing but the counters of
the core, and no call changes what the panel wants of a client that the policy still knows.

Main results:

- Theorem {lit}`apply_touches`: an operation that is carried out touches its client only.
- Theorem {lit}`settleRow_touches`: neither does bringing a client in line touch another one.
-/

namespace DarkXray
namespace Management

open Library Policy Usage
open DarkXray.Core (Record ClientRow ClientStore sortedSet sameSubId emailRe writable keepsIdentity)

/-! ## Relations on the panel -/

/-- What the panel wants of a client. -/
def ManagedRow.wanted (row : ManagedRow) : Record × List ℤ :=
  (row.desired, row.inbounds)

/-- What the core holds of a client, besides its counters. -/
def shape (row : ClientRow) : Record × List ℤ :=
  (row.body, row.inbounds)

/-- The later row of a client: it wants the same, or the policy has lost the client and it wants
nothing. -/
def Succeeds (u : Option Client) (row row' : ManagedRow) : Prop :=
  (row'.wanted = row.wanted ∧ (row'.state = .deleted → row.state = .deleted)) ∨
    (u = none ∧ row'.desired.doc = .dict [])

/-- No client is new, none has changed its owner, and the panel wants the same of all of them. -/
structure Follows (s t : Panel) : Prop where
  profiles : t.profiles = s.profiles
  owner : ∀ e u', t.policy.clients.get? e = some u' →
    ∃ u, s.policy.clients.get? e = some u ∧ u.owner = u'.owner
  known : ∀ e row, s.managed.get? e = some row → ∃ row', t.managed.get? e = some row'
  row : ∀ e row', t.managed.get? e = some row' →
    ∃ row, s.managed.get? e = some row ∧ Succeeds (t.policy.clients.get? e) row row'

/-- Nothing of a client has changed besides its counters in the core. -/
structure Spares (e : String) (s t : Panel) : Prop where
  row : t.managed.get? e = s.managed.get? e
  record : (t.core.get? e).map shape = (s.core.get? e).map shape
  tombstone : t.tombstones.get? e = s.tombstones.get? e
  resets : t.resets.count e = s.resets.count e
  meter : t.accounts.managed.get? e = s.accounts.managed.get? e
  used : t.accounts.clients.get? e = s.accounts.clients.get? e
  billed : t.accounts.billed e = s.accounts.billed e
  policy : t.policy.clients.get? e = s.policy.clients.get? e

/-- What is said of clients is the same. -/
structure Alike (s t : Panel) : Prop where
  profiles : t.profiles = s.profiles
  policy : t.policy.clients = s.policy.clients
  managed : t.managed = s.managed
  core : t.core = s.core
  tombstones : t.tombstones = s.tombstones
  resets : t.resets = s.resets
  meters : t.accounts.managed = s.accounts.managed
  used : t.accounts.clients = s.accounts.clients
  ledger : t.accounts.trafficLedger = s.accounts.trafficLedger

/-- A row succeeds itself. -/
theorem Succeeds.refl {u : Option Client} (row : ManagedRow) : Succeeds u row row :=
  .inl ⟨rfl, id⟩

/-- A policy that is lost stays lost. -/
theorem Succeeds.trans {u u' : Option Client} {row row' row'' : ManagedRow}
    (h : Succeeds u row row') (h' : Succeeds u' row' row'') (hu : u = none → u' = none) :
    Succeeds u' row row'' := by
  rcases h' with ⟨hwanted', hdeleted'⟩ | hlost
  · rcases h with ⟨hwanted, hdeleted⟩ | ⟨hnone, hempty⟩
    · exact .inl ⟨hwanted'.trans hwanted, fun hd => hdeleted (hdeleted' hd)⟩
    · refine .inr ⟨hu hnone, ?_⟩
      rw [← hempty]
      exact congrArg (fun w : Record × List ℤ => w.1.doc) hwanted'
  · exact .inr hlost

/-- A store follows itself. -/
theorem Follows.refl (s : Panel) : Follows s s where
  profiles := rfl
  owner _ u hu := ⟨u, hu, rfl⟩
  known _ row hrow := ⟨row, hrow⟩
  row _ row hrow := ⟨row, hrow, .refl row⟩

/-- Following is transitive. -/
theorem Follows.trans {s t v : Panel} (h : Follows s t) (h' : Follows t v) : Follows s v where
  profiles := h'.profiles.trans h.profiles
  owner := by
    intro e u'' hu''
    obtain ⟨u', hu', howner'⟩ := h'.owner e u'' hu''
    obtain ⟨u, hu, howner⟩ := h.owner e u' hu'
    exact ⟨u, hu, howner.trans howner'⟩
  known := by
    intro e row hrow
    obtain ⟨row', hrow'⟩ := h.known e row hrow
    exact h'.known e row' hrow'
  row := by
    intro e row'' hrow''
    obtain ⟨row', hrow', hsucceeds'⟩ := h'.row e row'' hrow''
    obtain ⟨row, hrow, hsucceeds⟩ := h.row e row' hrow'
    refine ⟨row, hrow, hsucceeds.trans hsucceeds' fun hnone => ?_⟩
    cases hv : v.policy.clients.get? e with
    | none => rfl
    | some u =>
        obtain ⟨u', hu', -⟩ := h'.owner e u hv
        rw [hnone] at hu'
        cases hu'

/-- No change spares every client. -/
theorem Spares.refl (e : String) (s : Panel) : Spares e s s :=
  ⟨rfl, rfl, rfl, rfl, rfl, rfl, rfl, rfl⟩

/-- Changes that spare a client spare it together. -/
theorem Spares.trans {e : String} {s t v : Panel} (h : Spares e s t) (h' : Spares e t v) :
    Spares e s v where
  row := h'.row.trans h.row
  record := h'.record.trans h.record
  tombstone := h'.tombstone.trans h.tombstone
  resets := h'.resets.trans h.resets
  meter := h'.meter.trans h.meter
  used := h'.used.trans h.used
  billed := h'.billed.trans h.billed
  policy := h'.policy.trans h.policy

/-- Only the client {lit}`e` may have changed, and as {lit}`Follows` allows it. -/
def touching (e : String) : Frame Panel where
  inv _ := True
  rel s t := Follows s t ∧ ∀ e' ≠ e, Spares e' s t
  refl s := ⟨.refl s, fun e' _ => .refl e' s⟩
  trans _ _ _ h h' := ⟨h.1.trans h'.1, fun e' he => (h.2 e' he).trans (h'.2 e' he)⟩

/-- Alike stores follow each other. -/
theorem Alike.follows {s t : Panel} (h : Alike s t) : Follows s t where
  profiles := h.profiles
  owner _ u hu := ⟨u, h.policy ▸ hu, rfl⟩
  known _ row hrow := ⟨row, h.managed ▸ hrow⟩
  row _ row hrow := ⟨row, h.managed ▸ hrow, .refl row⟩

/-- Alike stores spare every client. -/
theorem Alike.spares {s t : Panel} (h : Alike s t) (e : String) : Spares e s t where
  row := by rw [h.managed]
  record := by rw [h.core]
  tombstone := by rw [h.tombstones]
  resets := by rw [h.resets]
  meter := by rw [h.meters]
  used := by rw [h.used]
  billed := by simp only [Accounts.billed, h.ledger]
  policy := by rw [h.policy]

/-! ## Elementary calls -/

section Elementary

variable {e : String} {α : Type} {q : α → Prop} {m : Call α}

/-- A write that changes nothing that is said of clients. -/
theorem write_alike {f : Panel → Panel} (h : ∀ s, Alike s (f s)) :
    (touching e).Respects (Tx.write f : Call Unit) :=
  .write fun s _ => ⟨trivial, (h s).follows, fun e' _ => (h s).spares e'⟩

/-- The next answer of the surroundings leaves the clients alike. -/
theorem alike_script (s : Panel) : Alike s { s with script := s.script.tail } :=
  ⟨rfl, rfl, rfl, rfl, rfl, rfl, rfl, rfl, rfl⟩

/-- Taking the next answer touches no client. -/
theorem nextAnswer_touches : (touching e).Respects nextAnswer := by
  refine Frame.Keeps.look.bind fun answer _ => ?_
  exact Frame.Keeps.bind (write_alike alike_script) fun _ _ => .pure trivial

/-- Reaching the engine touches no client. -/
theorem reach_touches : (touching e).Respects reach := by
  refine nextAnswer_touches.bind fun answer _ => ?_
  cases answer with
  | answers samples => exact .pure trivial
  | fails h => exact .raise
  | crashes => exact .raise

/-- A point at which the process may stop touches no client. -/
theorem point_touches : (touching e).Respects point := by
  refine nextAnswer_touches.bind fun answer _ => ?_
  cases answer with
  | answers samples => exact .pure trivial
  | fails h => exact .pure trivial
  | crashes => exact .raise

/-- A transaction touches what its body touches. -/
theorem commit_touches (h : (touching e).Keeps q m) : (touching e).Keeps q (commit m) :=
  point_touches.bind fun _ _ => h.transaction

/-- A result that is passed on touches no client. -/
theorem ofFailure_touches {x : Except Failure α} : (touching e).Respects (ofFailure x) := by
  intro s _
  unfold ofFailure
  rw [Tx.wp_mapError, Tx.wp_ofExcept]
  exact ⟨fun _ _ => ⟨Frame.later_refl trivial, trivial⟩, fun _ _ => Frame.later_refl trivial⟩

/-- Drawing a token touches no client. -/
theorem token_touches : (touching e).Respects token := by
  refine Frame.Keeps.look.bind fun n _ => ?_
  refine Frame.Keeps.bind (write_alike fun s => ?_) fun _ _ => .pure trivial
  exact ⟨rfl, rfl, rfl, rfl, rfl, rfl, rfl, rfl, rfl⟩

/-- A line of the audit log touches no client. -/
theorem audit_touches {actor owner action target detail : String} :
    (touching e).Respects (audit actor owner action target detail) :=
  commit_touches (write_alike fun _ => ⟨rfl, rfl, rfl, rfl, rfl, rfl, rfl, rfl, rfl⟩)

/-- The rows of the other clients stay. -/
theorem spares_update {f : ManagedRow → ManagedRow} (s : Panel) {e' : String} (he : e' ≠ e) :
    Spares e' s { s with managed := s.managed.update e f } where
  row := by rw [Table.get?_update, if_neg he]
  record := rfl
  tombstone := rfl
  resets := rfl
  meter := rfl
  used := rfl
  billed := rfl
  policy := rfl

/-- A change of the row of a client that wants the same. -/
theorem setManaged_touches {f : ManagedRow → ManagedRow}
    (hf : ∀ row, (f row).wanted = row.wanted ∧ ((f row).state = .deleted → row.state = .deleted)) :
    (touching e).Respects (setManaged e f) := by
  refine .write fun s _ => ⟨trivial, ?_, fun e' he => spares_update s he⟩
  refine ⟨rfl, fun _ u hu => ⟨u, hu, rfl⟩, ?_, ?_⟩
  · intro e' row hrow
    simp only [Table.get?_update, hrow]
    split
    · exact ⟨f row, rfl⟩
    · exact ⟨row, rfl⟩
  · intro e' row' hrow'
    simp only [Table.get?_update] at hrow'
    split at hrow'
    · obtain ⟨row, hrow, rfl⟩ := Option.map_eq_some_iff.mp hrow'
      exact ⟨row, hrow, .inl (hf row)⟩
    · exact ⟨row', hrow', .refl row'⟩

/-- The end of a client whose policy is gone. -/
theorem finish_later {s : Panel} (hgone : s.policy.clients.get? e = none) :
    (touching e).Later s { s with
      cycles := s.cycles.erase e
      managed := s.managed.update e ManagedRow.deleted } := by
  refine ⟨trivial, ⟨rfl, fun _ u hu => ⟨u, hu, rfl⟩, ?_, ?_⟩, fun e' he => ?_⟩
  · intro e' row hrow
    simp only [Table.get?_update, hrow]
    split
    · exact ⟨row.deleted, rfl⟩
    · exact ⟨row, rfl⟩
  · intro e' row' hrow'
    simp only [Table.get?_update] at hrow'
    split at hrow' <;> rename_i he
    · obtain ⟨row, hrow, rfl⟩ := Option.map_eq_some_iff.mp hrow'
      subst he
      exact ⟨row, hrow, .inr ⟨hgone, rfl⟩⟩
    · exact ⟨row', hrow', .refl row'⟩
  · exact ⟨(spares_update s he).row, rfl, rfl, rfl, rfl, rfl, rfl, rfl⟩

end Elementary

/-! ## The core -/

/-- Only the row of one client may have changed. -/
def onlyRow (e : String) : Frame ClientStore where
  inv _ := True
  rel c c' := ∀ e' ≠ e, c'.clients.get? e' = c.clients.get? e'
  refl _ _ _ := rfl
  trans _ _ _ h h' e' he := (h' e' he).trans (h e' he)

section Engine

variable {e : String} {α : Type} {q : α → Prop} {s : Panel}

/-- What happens in the core says nothing about what is wanted. -/
theorem follows_core (s : Panel) (core : Table String ClientRow) :
    Follows s { s with core := core } where
  profiles := rfl
  owner _ u hu := ⟨u, hu, rfl⟩
  known _ row hrow := ⟨row, hrow⟩
  row _ row hrow := ⟨row, hrow, .refl row⟩

/-- A change of the core spares a client if the shape of its row stays. -/
theorem spares_core {core : Table String ClientRow}
    (h : (core.get? e).map shape = (s.core.get? e).map shape) :
    Spares e s { s with core := core } :=
  ⟨rfl, h, rfl, rfl, rfl, rfl, rfl, rfl⟩

/-- What only changes one row of the core touches that client only. -/
theorem onCore_touches {m : Tx ClientStore Core.Fault α} (h : (onlyRow e).Keeps q m) :
    (touching e).Keeps q (onCore m) := by
  refine .within fun s _ => ?_
  rw [Tx.wp_mapError]
  have hlater : ∀ c, (onlyRow e).Later s.clientStore c →
      (touching e).Later s { s with core := c.clients } := fun c hc =>
    ⟨trivial, follows_core s _, fun e' he => spares_core (by rw [hc.2 e' he]; rfl)⟩
  apply Tx.wp_mono (h s.clientStore trivial)
  · exact fun a c hc => ⟨hlater c hc.1, hc.2⟩
  · exact fun _ c hc => hlater c hc

/-- A write of the engine changes no row. -/
theorem engineWrite_only : (onlyRow e).Respects Core.engineWrite :=
  Frame.Keeps.look.bind fun _ _ => Frame.Keeps.require.respects

/-- Reading a client changes no row. -/
theorem clientDetail_only {email : String} : (onlyRow e).Respects (Core.clientDetail email) :=
  Frame.Keeps.look.bind fun _ _ => Frame.Keeps.demand.respects

/-- Writing a client changes its row only. -/
theorem writeClient_only (f : ClientRow → ClientRow) :
    (onlyRow e).Respects (Core.writeClient e f) := by
  refine Frame.Keeps.transaction (.write fun c _ => ⟨trivial, fun e' he => ?_⟩)
  rw [Table.get?_update, if_neg he]

/-- Updating a client changes its row only. -/
theorem update_only (client : Record) : (onlyRow e).Respects (Core.update e client) := by
  refine engineWrite_only.bind fun _ _ => ?_
  refine clientDetail_only.bind fun _ _ => ?_
  exact Frame.Keeps.require.bind fun _ _ => writeClient_only _

/-- Attaching inbounds to a client changes its row only. -/
theorem attach_only (ids : List ℤ) : (onlyRow e).Respects (Core.attach e ids) := by
  refine engineWrite_only.bind fun _ _ => ?_
  refine clientDetail_only.bind fun _ _ => ?_
  refine Frame.Keeps.look.bind fun _ _ => ?_
  exact Frame.Keeps.require.bind fun _ _ => writeClient_only _

/-- Detaching inbounds from a client changes its row only. -/
theorem detach_only (ids : List ℤ) : (onlyRow e).Respects (Core.detach e ids) := by
  refine engineWrite_only.bind fun _ _ => ?_
  refine clientDetail_only.bind fun _ _ => ?_
  exact Frame.Keeps.require.bind fun _ _ => writeClient_only _

/-- A client that names no other identity is created under its own, or not at all. -/
theorem identityText_eq {client : Record} {email : String} (hkept : keepsIdentity e client = true)
    (h : Core.identityText client = .ok email) (hvalid : emailRe email = true) : email = e := by
  unfold keepsIdentity at hkept
  unfold Core.identityText at h
  cases hget : client.doc.get? "email" with
  | none =>
      rw [hget] at h
      cases h
      exact absurd hvalid (by decide)
  | some v =>
      simp only [hget, Option.elim_some, decide_eq_true_eq] at h hkept
      rw [hkept] at h
      exact (Except.ok.inj h).symm

/-- An insertion leaves the other keys. -/
theorem get?_insert_of_ne {κ ρ : Type} [DecidableEq κ] (t : Table κ ρ) {k k' : κ} (hne : k' ≠ k)
    (r : ρ) : (t.insert k r).get? k' = t.get? k' := by
  cases hk : t.get? k with
  | none => rw [Table.get?_insert hk, if_neg hne]
  | some old =>
      have hmem : k ∈ t.rows.map Prod.fst := by
        by_contra hnot
        rw [Table.get?_eq_none_iff.mpr hnot] at hk
        cases hk
      rw [Table.insert, dif_pos hmem]

/-- Creating a client changes its row only. -/
theorem create_only {client : Record} (hkept : keepsIdentity e client = true) (ids : List ℤ) :
    (onlyRow e).Respects (Core.create client ids) := by
  refine engineWrite_only.bind fun _ _ => ?_
  refine Frame.Keeps.bind (.ofExcept fun _ h => h) fun email hemail => ?_
  refine Frame.Keeps.require.bind fun _ hvalid => ?_
  refine Frame.Keeps.look.bind fun _ _ => ?_
  refine Frame.Keeps.require.bind fun _ _ => Frame.Keeps.transaction ?_
  refine Frame.Keeps.look.bind fun _ _ => ?_
  refine Frame.Keeps.require.bind fun _ _ => .write fun c _ => ⟨trivial, fun e' he => ?_⟩
  rw [identityText_eq hkept hemail hvalid]
  exact get?_insert_of_ne _ he _

/-- Collecting counters touches no other client. -/
theorem collect_touches {samples : List (String × ℕ × ℕ)} :
    (touching e).Respects (collect samples) := by
  refine .write fun s _ => ⟨trivial, follows_core s _, fun e' _ => spares_core ?_⟩
  rw [Table.get?_mapRows, Option.map_map]
  congr 1
  funext row
  simp only [Function.comp_apply, shape, addSamples]
  split <;> rfl

/-- Listing the clients touches none of them. -/
theorem engineClients_touches : (touching e).Respects engineClients := by
  refine reach_touches.bind fun _ _ => ?_
  exact collect_touches.bind fun _ _ => .look

/-- The engine updates one client only. -/
theorem engineUpdate_touches (client : Record) : (touching e).Respects (engineUpdate e client) :=
  reach_touches.bind fun _ _ => onCore_touches (update_only client)

/-- The engine attaches inbounds to one client only. -/
theorem engineAttach_touches (ids : List ℤ) : (touching e).Respects (engineAttach e ids) :=
  reach_touches.bind fun _ _ => onCore_touches (attach_only ids)

/-- The engine detaches inbounds from one client only. -/
theorem engineDetach_touches (ids : List ℤ) : (touching e).Respects (engineDetach e ids) :=
  reach_touches.bind fun _ _ => onCore_touches (detach_only ids)

/-- The engine creates one client only. -/
theorem engineCreate_touches {client : Record} (hkept : keepsIdentity e client = true)
    (ids : List ℤ) : (touching e).Respects (engineCreate client ids) :=
  reach_touches.bind fun _ _ => onCore_touches (create_only hkept ids)

/-- Flushing the counters touches no other client. -/
theorem engineFlush_touches : (touching e).Respects engineFlush :=
  reach_touches.bind fun _ _ => .pure trivial

/-- The tombstone of a client touches no other one. -/
theorem entomb_touches : (touching e).Respects (entomb e) := by
  refine Frame.Keeps.look.bind fun row _ => ?_
  cases row with
  | none => exact .pure trivial
  | some row =>
      refine Frame.Keeps.bind (.write fun s _ => ⟨trivial, ?_, fun e' he => ?_⟩) fun _ _ =>
        .pure trivial
      · exact ⟨rfl, fun _ u hu => ⟨u, hu, rfl⟩, fun _ row hrow => ⟨row, hrow⟩,
          fun _ row hrow => ⟨row, hrow, .refl row⟩⟩
      · refine ⟨rfl, ?_, ?_, rfl, rfl, rfl, rfl, rfl⟩
        · rw [Table.get?_erase, if_neg he]
        · rw [Table.get?_upsert, if_neg he]

/-- The engine deletes one client only. -/
theorem engineDelete_touches : (touching e).Respects (engineDelete e) := by
  refine (onCore_touches engineWrite_only).bind fun _ _ => ?_
  refine reach_touches.bind fun _ _ => ?_
  exact collect_touches.bind fun _ _ => commit_touches entomb_touches

/-- Zeroing the counters of a client touches no other one. -/
theorem zeroCounters_touches : (touching e).Respects (zeroCounters e) := by
  refine Frame.Keeps.look.bind fun row _ => ?_
  refine Frame.Keeps.bind (.write fun s _ => ⟨trivial, ?_, fun e' he => ?_⟩) fun _ _ =>
    .pure trivial
  · exact ⟨rfl, fun _ u hu => ⟨u, hu, rfl⟩, fun _ row hrow => ⟨row, hrow⟩,
      fun _ row hrow => ⟨row, hrow, .refl row⟩⟩
  · refine ⟨rfl, ?_, rfl, ?_, rfl, rfl, rfl, rfl⟩
    · rw [Table.get?_update, if_neg he]
    · simp [List.count_append, Ne.symm he]

/-- The engine resets one client only. -/
theorem engineReset_touches : (touching e).Respects (engineReset e) := by
  refine (onCore_touches engineWrite_only).bind fun _ _ => ?_
  refine reach_touches.bind fun _ _ => ?_
  exact collect_touches.bind fun _ _ => commit_touches zeroCounters_touches

end Engine

/-! ## Meters and policies -/

/-- Only the meters of one client may have changed. -/
def onlyMeter (e : String) : Frame Accounts where
  inv _ := True
  rel a a' := ∀ e' ≠ e, a'.managed.get? e' = a.managed.get? e' ∧
    a'.clients.get? e' = a.clients.get? e' ∧ a'.billed e' = a.billed e'
  refl _ _ _ := ⟨rfl, rfl, rfl⟩
  trans _ _ _ h h' e' he :=
    ⟨(h' e' he).1.trans (h e' he).1, (h' e' he).2.1.trans (h e' he).2.1,
      (h' e' he).2.2.trans (h e' he).2.2⟩

section Meters

variable {e : String} {digest : String → String} {row : ManagedMeter} {α : Type} {q : α → Prop}

/-- What only changes the meter of one client touches that client only. -/
theorem onAccounts_touches {m : Tx Accounts Failure α} (h : (onlyMeter e).Keeps q m) :
    (touching e).Keeps q (onAccounts m) := by
  refine .within fun s _ => ?_
  rw [Tx.wp_mapError]
  have hlater : ∀ a, (onlyMeter e).Later s.accounts a →
      (touching e).Later s { s with accounts := a } := by
    intro a ha
    refine ⟨trivial, ?_, fun e' he => ?_⟩
    · exact ⟨rfl, fun _ u hu => ⟨u, hu, rfl⟩, fun _ row hrow => ⟨row, hrow⟩,
        fun _ row hrow => ⟨row, hrow, .refl row⟩⟩
    · obtain ⟨hmeter, hused, hbilled⟩ := ha.2 e' he
      exact ⟨rfl, rfl, rfl, rfl, hmeter, hused, hbilled, rfl⟩
  apply Tx.wp_mono (h s.accounts trivial)
  · exact fun a c hc => ⟨hlater c hc.1, hc.2⟩
  · exact fun _ c hc => hlater c hc

/-- Reading the remote counters of a client changes no other meter. -/
theorem readRemote_only : (onlyMeter e).Respects (readRemote e) := by
  refine Frame.Keeps.look.bind fun _ _ => ?_
  exact Frame.Keeps.require.bind fun _ _ => .pure trivial

/-- A ledger row of one client is none of another one. -/
theorem insertLedger_only {owner : String} {seq : ℕ} {du dd : ℤ} :
    (onlyMeter e).Respects (insertLedger digest e owner seq du dd) := by
  refine Frame.Keeps.require.bind fun _ _ => ?_
  refine Frame.Keeps.look.bind fun _ _ => ?_
  refine Frame.Keeps.demand.bind fun period _ => ?_
  refine .read_bind fun a _ => ?_
  rw [Tx.wp_bind, Tx.wp_require]
  refine ⟨fun hnew => ⟨⟨trivial, fun e' he => ⟨rfl, rfl, ?_⟩⟩, trivial⟩,
    fun _ => Frame.later_refl trivial⟩
  simp only [Accounts.billed]
  rw [Table.total_insert hnew]
  simp [he.symm]

/-- Storing what a client has used changes its meter only. -/
theorem storeUsed_only {total : ℤ} {user : Nodes.MeteredClient} :
    (onlyMeter e).Respects (storeUsed e total user) := by
  refine .when fun _ => .write fun a _ => ⟨trivial, fun e' he => ⟨rfl, ?_, rfl⟩⟩
  rw [Table.get?_update, if_neg he]

/-- Storing the baseline of a client changes its meter only. -/
theorem storeBaseline_only {up down : ℤ} :
    (onlyMeter e).Respects (storeBaseline e row up down) := by
  refine .when fun _ => .write fun a _ => ⟨trivial, fun e' he => ⟨?_, rfl, rfl⟩⟩
  rw [Table.get?_update, if_neg he]

/-- Advancing the readings of a client changes its meter only. -/
theorem advance_only {up down : ℤ} : (onlyMeter e).Respects (advance digest e row up down) := by
  refine Frame.Keeps.transaction (Frame.Keeps.look.bind fun user _ => ?_)
  cases user with
  | none => exact .pure trivial
  | some user =>
      refine Frame.Keeps.bind (.when fun _ => insertLedger_only) fun _ _ => ?_
      refine readRemote_only.bind fun remote _ => ?_
      refine Frame.Keeps.require.bind fun _ _ => ?_
      refine storeUsed_only.bind fun _ _ => ?_
      exact storeBaseline_only.bind fun _ _ => .pure trivial

/-- Charging a snapshot of a client changes its meter only. -/
theorem chargeSnapshot_only {traffic : Option Counters} :
    (onlyMeter e).Respects (chargeSnapshot digest e row traffic) := by
  refine Frame.Keeps.check.bind fun c _ => ?_
  refine Frame.Keeps.require.bind fun _ _ => ?_
  refine Frame.Keeps.require.bind fun _ _ => ?_
  refine Frame.Keeps.look.bind fun user _ => ?_
  cases user with
  | none => exact .pure trivial
  | some user =>
      refine readRemote_only.bind fun remote _ => ?_
      refine Frame.Keeps.require.bind fun _ _ => .when fun _ => ?_
      refine advance_only.bind fun owner _ => .when fun _ => .write fun a _ => ?_
      exact ⟨trivial, fun _ _ => ⟨rfl, rfl, rfl⟩⟩

/-- Settling the reset of a client changes its meter only. -/
theorem settleReset_only {commits : Bool} : (onlyMeter e).Respects (settleReset e commits) := by
  refine Frame.Keeps.transaction (Frame.Keeps.bind (.write fun a _ => ⟨trivial, fun e' he => ?_⟩)
    fun _ _ => Frame.Keeps.require.respects)
  refine ⟨?_, ?_, rfl⟩
  · rw [Table.get?_update, if_neg he]
  · rw [Table.get?_update, if_neg he]

/-- Charging a client touches no other one. -/
theorem charge_touches {env : Setting} {record : ClientRow} :
    (touching e).Respects (charge env e record) := by
  refine point_touches.bind fun _ _ => ?_
  refine Frame.Keeps.look.bind fun _ _ => ?_
  exact Frame.Keeps.demand.bind fun _ _ => onAccounts_touches chargeSnapshot_only

end Meters

section Policies

variable {e : String} {u : Client} {p p' : Store} {edit : ClientEdit} {now : ℤ} {actor : Actor}

/-- An edit leaves the owner of its client, and the other clients. -/
theorem editClient_clients {r : Unit} (h : editClient actor e edit now p = (.ok r, p')) :
    ∃ u new, p.clients.get? e = some u ∧ new.owner = u.owner ∧
      p'.clients = p.clients.update e fun _ => new := by
  simp only [editClient, Actor.require, Tx.transaction_ok_iff, Tx.read_bind, Tx.demand_bind_iff,
    Tx.require_bind_iff, Tx.ofExcept_bind_iff] at h
  obtain ⟨u, hu, -, limit, -, quota, -, h⟩ := h
  obtain ⟨_, p₁, hcheck, h⟩ := Tx.bind_ok_iff.mp h
  simp only [Tx.ofExcept_bind_iff] at h
  obtain ⟨expires, -, manual, -, h⟩ := h
  obtain ⟨_, p₂, hchange, hwrite⟩ := Tx.bind_ok_iff.mp h
  rw [Tx.write_ok_iff] at hwrite
  subst hwrite
  have hchecked : p₁ = p := by
    rcases Tx.when_ok_iff.mp hcheck with ⟨-, hcheck⟩ | ⟨-, rfl⟩
    · exact (checkVolume_ok hcheck).1.symm
    · rfl
  have hplan : p₂.clients = p.clients := by
    rcases Tx.when_ok_iff.mp hchange with ⟨-, hchange⟩ | ⟨-, rfl⟩
    · obtain ⟨_, _, hbody, hreturn⟩ := Tx.bind_ok_iff.mp hchange
      obtain ⟨-, rfl⟩ := Tx.pure_ok_iff.mp hreturn
      rw [(conserves_changed (o := "") (Credit.change_ok hbody)).2.1, hchecked]
    · rw [hchecked]
  exact ⟨u, editedClient u limit quota expires manual, hu, rfl, by rw [hplan]⟩

/-- A change of the policy that keeps the owner of one client, or forgets it. -/
theorem policy_later {s : Panel} {policy : Store} {accounts : Accounts}
    (hother : ∀ e' ≠ e, policy.clients.get? e' = s.policy.clients.get? e')
    (howner : ∀ u', policy.clients.get? e = some u' →
      ∃ u, s.policy.clients.get? e = some u ∧ u.owner = u'.owner)
    (haccounts : (onlyMeter e).rel s.accounts accounts) :
    (touching e).Later s { s with policy := policy, accounts := accounts } := by
  refine ⟨trivial, ⟨rfl, fun e' u' hu' => ?_, fun _ row hrow => ⟨row, hrow⟩,
    fun _ row hrow => ⟨row, hrow, .refl row⟩⟩, fun e' he => ?_⟩
  · by_cases he : e' = e
    · subst he
      exact howner u' hu'
    · exact ⟨u', (hother e' he) ▸ hu', rfl⟩
  · obtain ⟨hmeter, hused, hbilled⟩ := haccounts e' he
    exact ⟨rfl, rfl, rfl, rfl, hmeter, hused, hbilled, hother e' he⟩

/-- Editing the policy of a client touches no other one. -/
theorem editClient_touches : (touching e).Respects (onPolicy (editClient actor e edit now)) := by
  refine .within fun s _ => ?_
  rw [Tx.wp_mapError]
  unfold Tx.wp
  cases hrun : editClient actor e edit now s.policy with
  | mk result policy =>
      cases result with
      | error failure =>
          have hatomic : policy = s.policy := Tx.Atomic.transaction _ _ _ _ hrun
          rw [hatomic]
          exact Frame.later_refl trivial
      | ok r =>
          obtain ⟨u, new, hu, howner, hclients⟩ := editClient_clients hrun
          refine ⟨policy_later ?_ ?_ ((onlyMeter e).refl s.accounts), trivial⟩
          · intro e' he
            rw [hclients, Table.get?_update, if_neg he]
          · intro u' hu'
            rw [hclients, Table.get?_update, if_pos rfl, hu] at hu'
            obtain rfl := Option.some.inj hu'
            exact ⟨u, hu, howner.symm⟩

/-- The transaction that ends a policy: the client is gone when it returns. -/
theorem wp_deletePolicy {s : Panel} : (deletePolicy e).wp
    (fun _ t => (touching e).Later s t ∧ t.policy.clients.get? e = none)
    (fun _ t => (touching e).Later s t) s := by
  unfold deletePolicy commit
  rw [Tx.wp_bind]
  apply Tx.wp_mono (point_touches s trivial)
  · intro _ t ht
    rw [Tx.wp_transaction, Tx.wp_bind, onPolicy, Tx.wp_within, Tx.wp_mapError]
    unfold Tx.wp
    cases hrun : deleteClient system e t.policy with
    | mk result policy =>
        cases result with
        | error failure => exact ht.1
        | ok r =>
            simp only [deleteClient, Actor.require, Tx.transaction_ok_iff, Tx.read_bind,
              Tx.demand_bind_iff, Tx.require_bind_iff, Tx.write_ok_iff] at hrun
            obtain ⟨u, hu, -, rfl⟩ := hrun
            have hgone : (t.policy.clients.erase e).get? e = none := by
              rw [Table.get?_erase, if_pos rfl]
            refine ⟨ht.1.trans (policy_later ?_ ?_ ?_), hgone⟩
            · intro e' he
              rw [Table.get?_erase, if_neg he]
            · intro u' hu'
              rw [hgone] at hu'
              cases hu'
            · intro e' he
              refine ⟨rfl, ?_, rfl⟩
              rw [Table.get?_erase, if_neg he]
  · exact fun _ t ht => ht

end Policies

/-! ## Operations -/

section Operations

variable {e : String} {env : Setting} {row : ManagedRow} {existing : Option ClientRow}

/-- A change of the schedules touches no client. -/
theorem cycles_touches {f : Panel → Table String Cycle} :
    (touching e).Respects (Tx.write fun s => { s with cycles := f s } : Call Unit) :=
  write_alike fun _ => ⟨rfl, rfl, rfl, rfl, rfl, rfl, rfl, rfl, rfl⟩

/-- Starting a schedule anew touches no client. -/
theorem restartSchedule_touches {email : String} {spec : ScheduleSpec} {cap : ℤ} :
    (touching e).Respects (restartSchedule env email spec cap) :=
  ofFailure_touches.bind fun _ _ => cycles_touches

/-- Carrying a schedule on touches its client only. -/
theorem continueSchedule_touches {cycle : Cycle} {cap : ℤ} :
    (touching e).Respects (continueSchedule env e row cycle cap) := by
  refine cycles_touches.bind fun _ _ => .when fun _ => ?_
  refine token_touches.bind fun opId _ => setManaged_touches fun row => ⟨rfl, ?_⟩
  intro h
  cases h

/-- Scheduling a client touches no other one. -/
theorem schedule_touches : (touching e).Respects (schedule env e row) := by
  refine Frame.Keeps.check.bind fun settings _ => ?_
  cases scheduleSpec settings with
  | none => exact cycles_touches
  | some spec =>
      refine Frame.Keeps.look.bind fun cycle _ => ?_
      cases cycle with
      | none => exact restartSchedule_touches
      | some cycle =>
          exact .ite (fun _ => restartSchedule_touches) fun _ => continueSchedule_touches

/-- Completing a cycle of a client touches no other one. -/
theorem completeCycle_touches : (touching e).Respects (completeCycle env e) := by
  refine commit_touches (Frame.Keeps.look.bind fun cycle _ => ?_)
  cases cycle with
  | none => exact .pure trivial
  | some cycle => exact .when fun _ => ofFailure_touches.bind fun _ _ => cycles_touches

/-- A reset on the Nodes touches no client. -/
theorem remoteReset_touches : (touching e).Respects remoteReset :=
  reach_touches.bind fun _ _ => .pure trivial

/-- The final snapshot of a client touches no other one. -/
theorem finalSnapshot_touches : (touching e).Respects (finalSnapshot e row existing) := by
  cases existing with
  | none =>
      refine Frame.Keeps.look.bind fun final _ => ?_
      exact Frame.Keeps.require.bind fun _ _ => .pure trivial
  | some record => exact Frame.Keeps.require.bind fun _ _ => engineDelete_touches

/-- Charging the final snapshot of a client touches no other one. -/
theorem chargeFinal_touches {final : Option ClientRow} :
    (touching e).Respects (chargeFinal env e final) := by
  cases final with
  | none => exact .pure trivial
  | some record => exact charge_touches

/-- A deletion writes the end of the row when the policy of the client is gone. -/
theorem applyDelete_touches : (touching e).Respects (applyDelete env e row existing) := by
  refine remoteReset_touches.bind fun _ _ => ?_
  refine finalSnapshot_touches.bind fun final _ => ?_
  refine chargeFinal_touches.bind fun _ _ => .read_bind fun s _ => ?_
  have hfinish : ∀ t, (touching e).Later s t → t.policy.clients.get? e = none →
      (commit (Tx.write fun s => { s with
        cycles := s.cycles.erase e
        managed := s.managed.update e ManagedRow.deleted }) : Call Unit).wp
          (fun _ v => (touching e).Later s v ∧ True) (fun _ v => (touching e).Later s v) t := by
    intro t ht hgone
    unfold commit
    rw [Tx.wp_bind]
    have hpoint : point.wp (fun _ v => (touching e).Later t v ∧ v.policy = t.policy)
        (fun _ v => (touching e).Later t v) t := by
      unfold point nextAnswer
      simp only [Tx.wp_bind, Tx.wp_read, Tx.wp_write, Tx.wp_pure]
      have hscript : (touching e).Later t { t with script := t.script.tail } :=
        ⟨trivial, (alike_script t).follows, fun e' _ => (alike_script t).spares e'⟩
      cases t.script.head?.getD (.answers []) with
      | answers samples => exact ⟨hscript, rfl⟩
      | fails h => exact ⟨hscript, rfl⟩
      | crashes => exact hscript
    apply Tx.wp_mono hpoint
    · intro _ v hv
      exact ⟨ht.trans (hv.1.trans (finish_later (by rw [hv.2]; exact hgone))), trivial⟩
    · exact fun _ v hv => ht.trans hv
  rw [Tx.wp_bind, Tx.wp_when]
  refine ⟨fun _ => ?_, fun hunknown => hfinish s (Frame.later_refl trivial) ?_⟩
  · apply Tx.wp_mono wp_deletePolicy
    · exact fun _ t ht => hfinish t ht.1 ht.2
    · exact fun _ t ht => ht
  · cases hget : s.policy.clients.get? e with
    | none => rfl
    | some u => exact absurd (by rw [hget]; rfl) hunknown

/-- Carrying a reset of a client out touches no other one. -/
theorem applyReset_touches : (touching e).Respects (applyReset env e existing) := by
  refine Frame.Keeps.require.bind fun _ _ => ?_
  refine Frame.Keeps.bind (commit_touches (setManaged_touches fun row => ⟨rfl, ?_⟩)) fun _ _ => ?_
  · intro h
    cases h
  refine remoteReset_touches.bind fun _ _ => ?_
  refine engineReset_touches.bind fun final _ => ?_
  refine chargeFinal_touches.bind fun _ _ => ?_
  refine (commit_touches (onAccounts_touches settleReset_only)).bind fun _ _ => ?_
  exact completeCycle_touches

/-- A row that waits for nothing is none of a deleted client. -/
theorem applied_touches {f : ManagedRow → ManagedRow} (hf : ∀ row, (f row).wanted = row.wanted)
    (hstate : ∀ row, (f row).state = .applied) :
    (touching e).Respects (commit (setManaged e f)) := by
  refine commit_touches (setManaged_touches fun row => ⟨hf row, fun h => ?_⟩)
  rw [hstate row] at h
  cases h

/-- Taking a client over touches no other one. -/
theorem takenOver_touches {enabled : Bool} :
    (touching e).Respects (setManaged e (ManagedRow.takenOver enabled)) := by
  refine setManaged_touches fun row => ⟨rfl, fun h => ?_⟩
  cases h

/-- What the core gets for a row names no other identity than the row does. -/
theorem keepsIdentity_wanted (h : keepsIdentity e row.desired = true) (enabled : Bool) :
    keepsIdentity e (wantedClient row enabled) = true := by
  unfold keepsIdentity wantedClient Record.set at *
  rwa [Doc.get?_set_of_ne _ (by decide)]

/-- Aligning the inbounds of a client touches no other one. -/
theorem alignInbounds_touches {actual want : List ℤ} :
    (touching e).Respects (alignInbounds e actual want) := by
  refine Frame.Keeps.bind (.when fun _ => engineAttach_touches _) fun _ _ => ?_
  exact .when fun _ => engineDetach_touches _

/-- Creating or changing a client touches no other one, as its row keeps its identity. -/
theorem applyUpsert_touches (hrow : keepsIdentity e row.desired = true) :
    (touching e).Respects (applyUpsert env e row existing) := by
  refine Frame.Keeps.look.bind fun enabled _ => ?_
  have hnote : (touching e).Respects (commit (setManaged e fun row : ManagedRow =>
      { row with expectedEnable := some enabled })) :=
    commit_touches (setManaged_touches fun row => ⟨rfl, id⟩)
  cases existing with
  | none =>
      exact (engineCreate_touches (keepsIdentity_wanted hrow enabled) _).bind fun _ _ => hnote
  | some record =>
      refine Frame.Keeps.require.bind fun _ _ => ?_
      refine (engineUpdate_touches _).bind fun _ _ => ?_
      exact alignInbounds_touches.bind fun _ _ => hnote

/-- An operation that is carried out touches its client only. -/
theorem apply_touches (hrow : keepsIdentity e row.desired = true) :
    (touching e).Respects (apply env e row existing) := by
  have happlied : (touching e).Respects (commit (setManaged e ManagedRow.applied)) :=
    applied_touches (fun _ => rfl) fun _ => rfl
  unfold apply
  cases row.op with
  | delete => exact applyDelete_touches
  | reset => exact applyReset_touches.bind fun _ _ => happlied
  | upsert => exact (applyUpsert_touches hrow).bind fun _ _ => happlied
  | none => exact happlied

/-- Noting a failed attempt on a client touches no other one. -/
theorem markFailure_touches {attempts : ℕ} {h : Halt} :
    (touching e).Respects (markFailure env e attempts h) := by
  refine commit_touches (setManaged_touches fun row => ⟨rfl, fun hdeleted => ?_⟩)
  dsimp only at hdeleted
  split at hdeleted <;> cases hdeleted

/-- An attempt on a client touches no other one. -/
theorem attempt_touches (hrow : keepsIdentity e row.desired = true) {changed : Bool} :
    (touching e).Respects (attempt env e row existing changed) := by
  refine .handle ((apply_touches hrow).bind fun _ _ => .pure trivial) fun h m' hm' => ?_
  split at hm'
  · cases hm'
    exact markFailure_touches.bind fun _ _ => .pure trivial
  · cases hm'

/-! ## Bringing a client in line -/

/-- Rejecting the quota of a client touches no other one. -/
theorem rejectQuota_touches {record : ClientRow} {u : Client} {h : Halt} :
    (touching e).Respects (rejectQuota e record u h) := by
  refine audit_touches.bind fun _ _ => ?_
  refine Frame.Keeps.look.bind fun _ _ => .ite (fun _ => ?_) fun _ => ?_
  · exact (engineUpdate_touches _).bind fun _ _ => .pure trivial
  · exact .pure trivial

/-- Reconciling the quota of a client touches no other one. -/
theorem reconcileQuota_touches {record : ClientRow} {u : Client} {observed : ℤ} :
    (touching e).Respects (reconcileQuota env e record u observed) := by
  refine .ite (fun _ => .handle ?_ fun h m' hm' => ?_) fun _ => .pure trivial
  · refine point_touches.bind fun _ _ => ?_
    exact editClient_touches.bind fun _ _ => .pure trivial
  · split at hm'
    · cases hm'
      exact rejectQuota_touches
    · cases hm'

/-- Reconciling the end of a client touches no other one. -/
theorem reconcileExpiry_touches {u : Client} {observed : ℤ} :
    (touching e).Respects (reconcileExpiry e u observed) := by
  refine .when fun _ => commit_touches (.write fun s _ => ?_)
  refine policy_later ?_ ?_ ((onlyMeter e).refl s.accounts)
  · intro e' he
    rw [Table.get?_update, if_neg he]
  · intro u' hu'
    rw [Table.get?_update, if_pos rfl] at hu'
    obtain ⟨u, hu, rfl⟩ := Option.map_eq_some_iff.mp hu'
    exact ⟨u, hu, rfl⟩

/-- Reconciling the policy of a client touches no other one. -/
theorem reconcilePolicy_touches {record : ClientRow} :
    (touching e).Respects (reconcilePolicy env e record) := by
  refine Frame.Keeps.check.bind fun _ _ => ?_
  refine Frame.Keeps.check.bind fun _ _ => ?_
  refine Frame.Keeps.look.bind fun u _ => ?_
  cases u with
  | none => exact .pure trivial
  | some u =>
      refine reconcileQuota_touches.bind fun _ _ => ?_
      exact reconcileExpiry_touches.bind fun _ _ => .pure trivial

/-- Noting an outside change of a client touches no other one. -/
theorem noteExternal_touches {record : ClientRow} :
    (touching e).Respects (noteExternal env e record row) := by
  refine Frame.Keeps.look.bind fun _ _ => .ite (fun _ => ?_) fun _ => ?_
  · exact Frame.Keeps.bind (commit_touches (setManaged_touches fun row => ⟨rfl, id⟩)) fun _ _ =>
      .pure trivial
  · exact .pure trivial

/-- Reconciling whether a client is enabled touches no other one. -/
theorem reconcileEnable_touches {record : ClientRow} :
    (touching e).Respects (reconcileEnable env e record row) := by
  refine noteExternal_touches.bind fun _ _ => ?_
  refine Frame.Keeps.look.bind fun _ _ => ?_
  refine Frame.Keeps.look.bind fun _ _ => ?_
  refine Frame.Keeps.bind (.when fun _ => engineUpdate_touches _) fun _ _ => .when fun _ => ?_
  exact commit_touches (setManaged_touches fun row => ⟨rfl, id⟩)

/-- Bringing a client in line touches it only. -/
theorem settleRow_touches {record : ClientRow} :
    (touching e).Respects (settleRow env record (e, row)) := by
  refine Frame.Keeps.bind (.when fun _ => ?_) fun _ _ => ?_
  · refine commit_touches (setManaged_touches fun row => ⟨rfl, fun h => ?_⟩)
    cases h
  refine charge_touches.bind fun _ _ => ?_
  exact reconcilePolicy_touches.bind fun _ _ => reconcileEnable_touches

end Operations

end Management
end DarkXray
