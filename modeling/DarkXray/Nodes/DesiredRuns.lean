import DarkXray.Library.Runs
import DarkXray.Nodes.DesiredState

/-!
# Atomicity of the application

What one application of a desired state leaves behind, however it ends, and what
follows for any sequence of envelopes.

Main results:

- Theorem {lit}`replaceGeneration_spec`: the new rows carry the counters of the
  snapshot.
- Theorem {lit}`rollback_spec`: what the exception handler leaves.
- Theorem {lit}`applyLocked_spec`: what an application leaves, however it ends.
- Theorem {lit}`failed_apply_counts`: the bytes of a failed generation stay counted.
- Theorem {lit}`desired_state_atomic`: revisions never go back, a revision has one
  hash, a failed application changes nothing but counted bytes, and it says which.
-/

namespace DarkXray
namespace Nodes

open Library Policy

variable {c : Course} {d : Desired} {m : Model} {snap db : AgentDb} {a a' : Agent}

/-! ## The first transaction -/

/-- What the rounds of the first transaction keep: the row of the state, and the counters
of the clients that are there already. -/
structure Replacing (snap db : AgentDb) (a : Agent) : Prop where
  state : a.db.state = db.state
  ordered : a.db.ordered = db.ordered
  counters : ∀ e r, a.db.coreClients.get? e = some r → (r.up, r.down) = snap.counters e

/-- An inbound changes no client. -/
theorem installInbound_spec (item : Assignment) (h : Replacing snap db a) :
    (installInbound c item).wp (fun _ t => Replacing snap db t) (fun _ _ => True) a := by
  rw [installInbound, Tx.wp_bind, Tx.wp_ofExcept]
  refine ⟨fun body _ => ?_, fun _ _ => trivial⟩
  rw [Tx.wp_bind, wp_addRow]
  refine ⟨fun _ => ?_, fun _ => trivial⟩
  rw [wp_addRow]
  exact ⟨fun _ => ⟨h.state, h.ordered, h.counters⟩, fun _ => trivial⟩

/-- A new client has the counters of the snapshot. -/
theorem installClient_spec (row : MergedClient) (h : Replacing snap db a) :
    (installClient c m snap.counters row).wp (fun _ t => Replacing snap db t)
      (fun _ _ => True) a := by
  rw [installClient, Tx.wp_bind, wp_addRow]
  refine ⟨fun hnew => ?_, fun _ => trivial⟩
  have hadded : ∀ e r, (a.db.coreClients.insert row.mirror ⟨row.raw,
      row.ids.dedup.insertionSort (· ≤ ·), (snap.counters row.mirror).1,
      (snap.counters row.mirror).2⟩).get? e = some r → (r.up, r.down) = snap.counters e := by
    intro e r hr
    rw [Table.get?_insert hnew] at hr
    by_cases he : e = row.mirror
    · rw [if_pos he, Option.some.injEq] at hr
      rw [← hr, he]
    · rw [if_neg he] at hr
      exact h.counters e r hr
  simp only [Tx.wp_bind, Tx.wp_read, Tx.wp_require, wp_addRow]
  refine ⟨fun _ => ⟨fun _ => ⟨fun _ => ?_, fun _ => trivial⟩, fun _ => trivial⟩, fun _ => trivial⟩
  exact ⟨h.state, h.ordered, hadded⟩

/-- The first transaction leaves the clients with the counters of the snapshot, or
everything as it was. -/
theorem replaceGeneration_spec (payload : Doc Scalar) :
    (replaceGeneration c payload m snap).wp (fun _ t => Replacing snap a.db t)
      (fun _ t => t = a) a := by
  rw [replaceGeneration, Tx.wp_transaction]
  simp only [Tx.wp_bind, Tx.wp_write]
  have hclear : Replacing snap a.db { a with db := clearGeneration payload a.db } :=
    ⟨rfl, rfl, by simp [clearGeneration]⟩
  apply Tx.wp_mono (Tx.wp_forM hclear fun item _ t ht => installInbound_spec item ht)
  · intro _ t ht
    apply Tx.wp_mono (Tx.wp_forM ht fun row _ t ht => installClient_spec row ht)
    · intro _ u hu
      rw [wp_attempt]
      exact ⟨fun _ => ⟨hu.state, hu.ordered, hu.counters⟩, fun _ _ => trivial⟩
    · exact fun _ _ _ => trivial
  · exact fun _ _ _ => trivial

/-- The row that an application records. -/
def appliedRow (c : Course) (d : Desired) : StateRow :=
  ⟨d.revision, d.hash, c.now, ""⟩

/-- The new generation has the counters of the snapshot, and what its own start adds. -/
structure Swapped (c : Course) (d : Desired) (effective : Bool) (snap : AgentDb) (a : Agent) :
    Prop where
  state : a.db.state = some (appliedRow c d)
  counters : ∀ e r, a.db.coreClients.get? e = some r →
    r.up = (snap.counters e).1 + (moved (c.begin effective).samples e).1 ∧
      r.down = (snap.counters e).2 + (moved (c.begin effective).samples e).2

/-- A replacement that raises leaves the state row, or has just written it. -/
structure Halfway (c : Course) (d : Desired) (db : AgentDb) (a : Agent) : Prop where
  state : a.db.state = db.state ∨ a.db.state = some (appliedRow c d)
  ordered : a.db.ordered = db.ordered

/-- The swap leaves the new generation, or raises somewhere on the way. -/
theorem swapGeneration_spec (control : ControlBits) (effective : Bool) :
    (swapGeneration c d m snap control effective).wp (fun _ t => Swapped c d effective snap t)
      (fun _ t => Halfway c d a.db t) a := by
  have hstart : Halfway c d a.db a := ⟨.inl rfl, rfl⟩
  rw [swapGeneration, Tx.wp_bind, wp_attempt]
  refine ⟨fun _ => ?_, fun _ _ => hstart⟩
  rw [Tx.wp_bind]
  apply Tx.wp_mono (replaceGeneration_spec d.payload)
  · intro _ t ht
    have hgrown : ∀ e r,
        (accrue (c.begin effective).samples t.db.coreClients).get? e = some r →
          r.up = (snap.counters e).1 + (moved (c.begin effective).samples e).1 ∧
            r.down = (snap.counters e).2 + (moved (c.begin effective).samples e).2 := by
      intro e r hr
      rw [get?_accrue] at hr
      obtain ⟨old, hold, rfl⟩ := Option.map_eq_some_iff.mp hr
      have hcounters := ht.counters e old hold
      simp only [← hcounters, and_self]
    rw [Tx.wp_bind, wp_runEngine]
    refine ⟨fun _ => ?_, fun _ _ => ⟨.inl ht.state, ht.ordered⟩⟩
    rw [Tx.wp_bind, recordApplied, Tx.wp_transaction, Tx.wp_bind, Tx.wp_write, wp_attempt]
    refine ⟨fun _ => ?_, fun _ _ => ⟨.inl ht.state, ht.ordered⟩⟩
    rw [wp_attempt]
    exact ⟨fun _ => ⟨rfl, hgrown⟩, fun _ _ => ⟨.inr rfl, ht.ordered⟩⟩
  · rintro _ _ rfl
    exact hstart

/-! ## The exception handler -/

/-- What the handler leaves of the tables that it has restored: bytes of the processes
that it stops or starts, and the report of the exception. -/
structure Settled (c : Course) (current : Status) (base : AgentDb) (a : Agent) : Prop where
  tables : a.db = { base.grow c.rollback.samples with state := a.db.state }
  state : a.db.state = base.state ∨
    ∃ detail, a.db.state = some (errorRow current c.now detail base.state)

/-- Restoring the snapshot succeeds, or fails and changes nothing. -/
theorem restoreState_spec (snap : Option AgentDb) :
    (restoreState c snap).wp
      (fun _ t => snap.elim (t.db = a.db) fun snap =>
        t.db = { snap with ordered := a.db.ordered } ∨ c.restore ≠ none ∧ t.db = a.db)
      (fun _ _ => False) a := by
  cases snap with
  | none => exact rfl
  | some snap =>
      simp only [restoreState, Option.elim_some, wp_noting, restoreSnapshot, Tx.wp_transaction,
        Tx.wp_bind, Tx.wp_write, wp_attempt]
      exact ⟨fun _ => .inl trivial, fun e he => .inr ⟨by simp [he], trivial⟩⟩

/-- The ports of the broker are no table. -/
theorem restoreGuard_spec (guarded : Bool) :
    (restoreGuard c guarded).wp (fun _ t => t.db = a.db) (fun _ _ => False) a := by
  cases guarded with
  | false => exact rfl
  | true => simp [restoreGuard]

/-- The engine that goes back counts the bytes of the process that it stops. -/
theorem restoreEngine_spec (wantsRunning : Bool) :
    (restoreEngine c wantsRunning).wp (fun _ t => t.db = a.db.grow c.rollback.samples)
      (fun _ _ => False) a := by
  simp [restoreEngine]

/-- The handler puts the snapshot back if there is one; if that fails, the tables stay as the
application has left them. -/
theorem rollback_spec {α : Type} (before : Status × Bool) (snap : Option AgentDb)
    (guarded : Bool) (e : Failure) :
    (rollback c before snap guarded e : Tx Agent Failure α).wp (fun _ _ => False)
      (fun _ t => snap.elim (Settled c before.1 a.db t) fun snap =>
        Settled c before.1 { snap with ordered := a.db.ordered } t ∨
          c.restore ≠ none ∧ Settled c before.1 a.db t) a := by
  have hrest : ∀ t : Agent, ∀ errors : List String,
      (do
        let guardErrors ← restoreGuard c guarded
        let coreErrors ← restoreEngine c before.2
        let errors := errors ++ guardErrors ++ coreErrors
        let detail := (e.message.take 400).toString ++
          if errors = [] then "" else "; rollback failed: " ++ ",".intercalate errors
        recordFailure c before.1 detail
        Tx.raise (if errors = [] then e else .coreError detail) : Tx Agent Failure α).wp
        (fun _ _ => False) (fun _ u => Settled c before.1 t.db u) t := by
    intro t errors
    rw [Tx.wp_bind]
    apply Tx.wp_mono (restoreGuard_spec guarded)
    · intro guardErrors u hu
      rw [Tx.wp_bind]
      apply Tx.wp_mono (restoreEngine_spec before.2)
      · intro coreErrors v hv
        rcases v with ⟨vdb, engine⟩
        obtain rfl : vdb = t.db.grow c.rollback.samples := hu ▸ hv
        simp only [recordFailure, Tx.wp_bind, Tx.wp_transaction, Tx.wp_write, wp_attempt,
          Tx.wp_raise]
        exact ⟨fun _ => ⟨rfl, .inr ⟨_, rfl⟩⟩, fun _ _ => ⟨rfl, .inl rfl⟩⟩
      · exact fun _ _ h => h.elim
    · exact fun _ _ h => h.elim
  rw [rollback, Tx.wp_bind]
  apply Tx.wp_mono (restoreState_spec snap)
  · intro errors t ht
    apply Tx.wp_mono (hrest t errors)
    · exact fun _ _ h => h
    · intro _ u hu
      cases snap with
      | none => exact ht ▸ hu
      | some snap =>
          rcases ht with ht | ⟨hfailed, ht⟩
          · exact .inl (ht ▸ hu)
          · exact .inr ⟨hfailed, ht ▸ hu⟩
  · exact fun _ _ h => h.elim

/-! ## One application -/

/-- The recorded revision moves forward, or stays with its hash. -/
def Status.Forward (st st' : Status) : Prop :=
  st.appliedRevision < st'.appliedRevision ∨
    st.appliedRevision = st'.appliedRevision ∧ st.appliedHash = st'.appliedHash

theorem Status.Forward.refl (st : Status) : st.Forward st :=
  .inr ⟨rfl, rfl⟩

theorem Status.Forward.trans {st st' st'' : Status} (h : st.Forward st') (h' : st'.Forward st'') :
    st.Forward st'' := by
  rcases h with hlt | ⟨heq, hhash⟩
  · rcases h' with hlt' | ⟨heq', -⟩
    · exact .inl (hlt.trans hlt')
    · exact .inl (heq' ▸ hlt)
  · rcases h' with hlt' | ⟨heq', hhash'⟩
    · exact .inl (heq ▸ hlt')
    · exact .inr ⟨heq.trans heq', hhash.trans hhash'⟩

theorem Status.Forward.le {st st' : Status} (h : st.Forward st') :
    st.appliedRevision ≤ st'.appliedRevision := by
  rcases h with hlt | ⟨heq, -⟩
  · exact hlt.le
  · exact heq.le

/-- An envelope that may be applied: not older than the recorded one, and under its
revision with the same hash. -/
def Desired.Follows (d : Desired) (current : Status) : Prop :=
  current.appliedRevision ≤ d.revision ∧
    (d.revision = current.appliedRevision → d.hash = current.appliedHash)

theorem Desired.Follows.forward {current : Status} (h : d.Follows current) (lastError : String) :
    current.Forward ⟨d.revision, d.hash, lastError⟩ := by
  rcases h.1.lt_or_eq with hlt | heq
  · exact .inl hlt
  · exact .inr ⟨heq, (h.2 heq.symm).symm⟩

instance (d : Desired) (current : Status) : Decidable (d.Follows current) :=
  inferInstanceAs (Decidable (_ ∧ _))

/-- The statistics that an application counts when it installs a state.  If it succeeds they are
the final ones of the old generation and those of the new one; if it raises they are the final
ones of the old generation, if it gets so far as to read them, and those of the generation that
the rollback stops. -/
def Course.installCounts (c : Course) (d : Desired) (a : Agent) (succeeds : Bool) : List Sample :=
  match c.model with
  | .error _ => []
  | .ok m =>
      (if c.identities.isNone then (c.final m (a.effectiveRunning c d) a).samples else []) ++
        if succeeds then (c.begin (a.effectiveRunning c d)).samples else c.rollback.samples

/-- The statistics that an application counts: none if it refuses the envelope, and those of
{lit}`reconcile_control` if the state is in force already. -/
def Course.counts (codec : Codec) (scope : String) (c : Course) (envelope : Doc Scalar) (a : Agent)
    (succeeds : Bool) : List Sample :=
  match validateEnvelope codec envelope with
  | .error _ => []
  | .ok d =>
      if payloadNodeId d.payload = scope ∧ d.Follows a.db.status then
        if d.revision = a.db.status.appliedRevision ∧ a.db.status.lastError = "" then
          c.reconcile.samples
        else c.installCounts d a succeeds
      else []

/-- All tables, the control row and the applied revision stay, but for statistics that are
added to the counters. -/
structure Kept (l : List Sample) (a a' : Agent) : Prop where
  tables : a'.db = { a.db.grow l with state := a'.db.state }
  revision : a'.db.status.appliedRevision = a.db.status.appliedRevision
  hash : a'.db.status.appliedHash = a.db.status.appliedHash

/-- Clients from before keep their counters, but for statistics that are added. -/
def Carried (l : List Sample) (a a' : Agent) : Prop :=
  ∀ e r r', a.db.coreClients.get? e = some r → a'.db.coreClients.get? e = some r' →
    r'.up = r.up + (moved l e).1 ∧ r'.down = r.down + (moved l e).2

theorem status_of_state {db db' : AgentDb} (h : db.state = db'.state) : db.status = db'.status := by
  rw [AgentDb.status, AgentDb.status, h]

/-- The report of an exception keeps the applied revision and its hash. -/
theorem status_of_errorRow {detail : String} {now : ℕ}
    (h : a'.db.state = some (errorRow a.db.status now detail a.db.state)) :
    a'.db.status.appliedRevision = a.db.status.appliedRevision ∧
      a'.db.status.appliedHash = a.db.status.appliedHash := by
  simp only [AgentDb.status, h, Option.elim_some]
  cases a.db.state with
  | none => exact ⟨rfl, rfl⟩
  | some row => exact ⟨rfl, rfl⟩

theorem moved_cons (s : Sample) (l : List Sample) (e : String) :
    moved (s :: l) e =
      if e = s.email then (s.up + (moved l e).1, s.down + (moved l e).2) else moved l e :=
  rfl

/-- The bytes of two lists of statistics. -/
theorem moved_append (l l' : List Sample) (e : String) :
    (moved (l ++ l') e).1 = (moved l e).1 + (moved l' e).1 ∧
      (moved (l ++ l') e).2 = (moved l e).2 + (moved l' e).2 := by
  induction l with
  | nil => simp [moved]
  | cons s l ih =>
      rw [List.cons_append, moved_cons, moved_cons]
      by_cases he : e = s.email
      · simp only [if_pos he, ih.1, ih.2, Nat.add_assoc, and_self]
      · simpa only [if_neg he] using ih

/-- Tables that only grew and were settled are kept. -/
theorem Settled.kept {l : List Sample} (h : Settled c a.db.status (a.db.grow l) a') :
    Kept (l ++ c.rollback.samples) a a' := by
  have hstatus : a'.db.status.appliedRevision = a.db.status.appliedRevision ∧
      a'.db.status.appliedHash = a.db.status.appliedHash := by
    rcases h.state with hsame | ⟨detail, herror⟩
    · rw [status_of_state hsame]
      exact ⟨rfl, rfl⟩
    · exact status_of_errorRow herror
  refine ⟨?_, hstatus.1, hstatus.2⟩
  rw [h.tables, grow_grow]

/-- Settling a state row of this application moves the revision forward. -/
theorem Settled.forward (h : Settled c a.db.status db a') (hd : d.Follows a.db.status)
    (hdb : db.state = a.db.state ∨ db.state = some (appliedRow c d)) :
    a.db.status.Forward a'.db.status := by
  rcases hdb with hold | hnew
  · rcases h.state with hsame | ⟨detail, herror⟩
    · rw [status_of_state (hsame.trans hold)]
      exact .refl _
    · rw [hold] at herror
      obtain ⟨hrevision, hhash⟩ := status_of_errorRow herror
      exact .inr ⟨hrevision.symm, hhash.symm⟩
  · rcases h.state with hsame | ⟨detail, herror⟩
    · rw [AgentDb.status, AgentDb.status, hsame, hnew]
      exact hd.forward ""
    · rw [hnew] at herror
      simp only [AgentDb.status, herror, errorRow, Option.elim_some]
      exact hd.forward detail

/-- Before the snapshot only the final counters of the old generation are written. -/
theorem finishGeneration_spec (effective : Bool) :
    (finishGeneration c m effective).wp
      (fun snap t => snap = t.db ∧ c.identities = none ∧
        t.db = a.db.grow (c.final m effective a).samples)
      (fun _ t => t.db = a.db.grow
        (if c.identities.isNone then (c.final m effective a).samples else [])) a := by
  rw [finishGeneration, Tx.wp_bind, wp_attempt]
  constructor
  · intro hnone
    rw [Tx.wp_bind, Tx.wp_read, id_eq, Tx.wp_bind, wp_runEngine, hnone]
    refine ⟨fun _ => ?_, fun _ _ => rfl⟩
    rw [Tx.wp_bind, wp_attempt]
    exact ⟨fun _ => ⟨rfl, rfl, rfl⟩, fun _ _ => rfl⟩
  · intro e hraised
    rw [hraised]
    rfl

/-- What a raising application leaves. -/
structure Refused (c : Course) (l : List Sample) (a a' : Agent) : Prop where
  forward : a.db.status.Forward a'.db.status
  kept : c.restore = none → Kept l a a'

/-- What a successful application leaves. -/
structure Accepted (l : List Sample) (res : Applied) (a a' : Agent) : Prop where
  forward : a.db.status.Forward a'.db.status
  status : a'.db.status = ⟨res.appliedRevision, res.appliedHash, ""⟩
  carried : Carried l a a'

theorem Kept.refused {l : List Sample} (h : Kept l a a') : Refused c l a a' :=
  ⟨.inr ⟨h.revision.symm, h.hash.symm⟩, fun _ => h⟩

/-- The statistics that are read before anything raises are kept. -/
theorem kept_grow (l : List Sample) (engine : EngineState) : Kept l a ⟨a.db.grow l, engine⟩ :=
  ⟨rfl, rfl, rfl⟩

/-- The handler gives back what was there before the snapshot. -/
theorem rollback_refused {α : Type} {t : Agent} {l : List Sample} {wantsRunning guarded : Bool}
    {e : Failure} (hd : d.Follows a.db.status) (ht : Halfway c d (a.db.grow l) t) :
    (rollback c (a.db.status, wantsRunning) (some (a.db.grow l)) guarded e :
      Tx Agent Failure α).wp (fun _ _ => False)
        (fun _ u => Refused c (l ++ c.rollback.samples) a u) t := by
  apply Tx.wp_mono (rollback_spec _ _ _ _)
  · exact fun _ _ h => h
  · intro _ u hu
    rcases hu with hrestored | ⟨hfailed, hu⟩
    · rw [ht.ordered] at hrestored
      exact hrestored.kept.refused
    · exact ⟨hu.forward hd ht.state, fun hnone => absurd hnone hfailed⟩

/-- The new generation has the old counters, and the statistics of both. -/
theorem Swapped.accepted {t : Agent} {l : List Sample} {effective : Bool}
    (hd : d.Follows a.db.status) (ht : Swapped c d effective (a.db.grow l) t) :
    Accepted (l ++ (c.begin effective).samples) ⟨true, d.revision, d.hash⟩ a t := by
  have hstatus : t.db.status = ⟨d.revision, d.hash, ""⟩ := by
    rw [AgentDb.status, ht.state]
    rfl
  refine ⟨hstatus ▸ hd.forward "", hstatus, ?_⟩
  intro e r r' hr hr'
  obtain ⟨hup, hdown⟩ := ht.counters e r' hr'
  obtain ⟨hmovedUp, hmovedDown⟩ := moved_append l (c.begin effective).samples e
  simp only [AgentDb.counters, AgentDb.grow, get?_accrue, hr, Option.map_some,
    Option.elim_some] at hup hdown
  constructor
  · rw [hup, hmovedUp, Nat.add_assoc]
  · rw [hdown, hmovedDown, Nat.add_assoc]

/-- What an application leaves when the state is not in force yet. -/
theorem installDesired_spec (hd : d.Follows a.db.status) :
    (installDesired c d a.db.status).wp
      (fun res t => Accepted (c.installCounts d a true) res a t)
      (fun _ t => Refused c (c.installCounts d a false) a t) a := by
  rw [installDesired, Tx.wp_bind, Tx.wp_ofExcept]
  constructor
  · intro m hm
    have hcounts : ∀ succeeds, c.installCounts d a succeeds =
        (if c.identities.isNone then (c.final m (a.effectiveRunning c d) a).samples else []) ++
          if succeeds then (c.begin (a.effectiveRunning c d)).samples
          else c.rollback.samples := by
      intro succeeds
      rw [Course.installCounts, hm]
    rw [Tx.wp_bind, Tx.wp_read]
    dsimp only [id_eq]
    rw [Tx.wp_bind, Tx.wp_handle]
    apply Tx.wp_mono (finishGeneration_spec _)
    · rintro _ t ⟨rfl, hnone, ht⟩
      rw [hcounts, hcounts, hnone]
      have hsame : Halfway c d (a.db.grow (c.final m (a.effectiveRunning c d) a).samples) t :=
        ⟨.inl (by rw [ht]), by rw [ht]⟩
      rw [Tx.wp_bind, Tx.wp_handle, Tx.wp_ofExcept]
      constructor
      · intro guarded _
        rw [Tx.wp_bind, Tx.wp_handle]
        apply Tx.wp_mono (swapGeneration_spec _ _)
        · intro _ u hu
          rw [ht] at hu
          exact hu.accepted hd
        · intro e u hu
          rw [ht] at hu
          rw [ht]
          apply Tx.wp_mono (rollback_refused hd hu)
          · exact fun _ _ h => h.elim
          · exact fun _ _ h => h
      · intro e _
        rw [ht]
        apply Tx.wp_mono (rollback_refused hd hsame)
        · exact fun _ _ h => h.elim
        · exact fun _ _ h => h
    · intro e t ht
      rw [hcounts]
      apply Tx.wp_mono (rollback_spec _ _ _ _)
      · exact fun _ _ h => h.elim
      · intro _ u hu
        have hsettled : Settled c a.db.status (a.db.grow
            (if c.identities.isNone then (c.final m (a.effectiveRunning c d) a).samples else []))
              u := ht ▸ hu
        exact hsettled.kept.refused
  · intro e hm
    have hcounts : c.installCounts d a false = [] := by rw [Course.installCounts, hm]
    rw [hcounts]
    exact (kept_grow [] a.engine).refused

/-- What an application leaves when the state is in force. -/
theorem confirmDesired_spec (hd : d.Follows a.db.status)
    (hsame : d.revision = a.db.status.appliedRevision) (hclean : a.db.status.lastError = "") :
    (confirmDesired c d).wp (fun res t => Accepted c.reconcile.samples res a t)
      (fun _ t => Refused c c.reconcile.samples a t) a := by
  have hkept : Kept c.reconcile.samples a ⟨a.db.grow c.reconcile.samples, c.reconcile.after⟩ :=
    kept_grow _ _
  have hstatus : a.db.status = ⟨d.revision, d.hash, ""⟩ := by
    rw [hsame, hd.2 hsame, ← hclean]
  rw [confirmDesired, Tx.wp_bind, wp_runEngine]
  refine ⟨fun _ => ?_, fun _ _ => hkept.refused⟩
  rw [Tx.wp_bind, wp_attempt]
  refine ⟨fun _ => ?_, fun _ _ => hkept.refused⟩
  rw [Tx.wp_bind, wp_attempt]
  refine ⟨fun _ => ⟨.refl _, hstatus, ?_⟩, fun _ _ => hkept.refused⟩
  intro e r r' hr hr'
  simp only [AgentDb.grow, get?_accrue, hr, Option.map_some, Option.some.injEq] at hr'
  rw [← hr']
  exact ⟨rfl, rfl⟩

/-- What one application leaves, however it ends. -/
theorem applyLocked_spec (codec : Codec) (scope : String) (envelope : Doc Scalar) :
    (applyLocked codec scope c envelope).wp
      (fun res t => Accepted (c.counts codec scope envelope a true) res a t)
      (fun _ t => Refused c (c.counts codec scope envelope a false) a t) a := by
  have hstart : Refused c [] a a := (kept_grow [] a.engine).refused
  rw [applyLocked, Tx.wp_bind, Tx.wp_ofExcept]
  constructor
  · intro d henvelope
    simp only [Course.counts, henvelope]
    by_cases haccepts : payloadNodeId d.payload = scope ∧ d.Follows a.db.status
    · simp only [if_pos haccepts, demandPolicy, Tx.wp_bind, Tx.wp_require, Tx.wp_read]
      obtain ⟨hscope, hd⟩ := haccepts
      refine ⟨fun _ => ⟨fun _ => ⟨fun _ => ?_, fun hnot => absurd hd.2 hnot⟩,
        fun hnot => absurd hd.1 hnot⟩, fun hnot => absurd hscope hnot⟩
      split <;> rename_i hsame
      · exact confirmDesired_spec hd hsame.1 hsame.2
      · exact installDesired_spec hd
    · simp only [if_neg haccepts, demandPolicy, Tx.wp_bind, Tx.wp_require, Tx.wp_read]
      exact ⟨fun hscope => ⟨fun hle => ⟨fun hhash => absurd ⟨hscope, hle, hhash⟩ haccepts,
        fun _ => hstart⟩, fun _ => hstart⟩, fun _ => hstart⟩
  · intro e henvelope
    simp only [Course.counts, henvelope]
    exact hstart

/-! ## Sequences of envelopes -/

/-- The Agent, with the revision and the hash of every successful application. -/
structure ApplyHistory where
  agent : Agent
  successes : List (ℤ × String)

/-- An envelope arrives, or something else changes the Agent. -/
inductive ApplyEvent where
  | apply (course : Course) (envelope : Doc Scalar)
  | meanwhile (agent : Agent)

namespace ApplyHistory

variable {codec : Codec} {scope : String} {w w' w'' : ApplyHistory}

/-- The history before the first envelope. -/
def start (agent : Agent) : ApplyHistory :=
  ⟨agent, []⟩

/-- The history after an application. -/
def record (w : ApplyHistory) : Except Failure Applied × Agent → ApplyHistory
  | (.ok res, a) => ⟨a, w.successes ++ [(res.appliedRevision, res.appliedHash)]⟩
  | (.error _, a) => ⟨a, w.successes⟩

/-- Only an application writes the row of the state. -/
def next (codec : Codec) (scope : String) (w : ApplyHistory) : ApplyEvent → Option ApplyHistory
  | .apply c envelope => some (w.record (applyLocked codec scope c envelope w.agent))
  | .meanwhile a => if a.db.state = w.agent.db.state then some { w with agent := a } else none

def Step (codec : Codec) (scope : String) (w : ApplyHistory) (event : ApplyEvent)
    (w' : ApplyHistory) : Prop :=
  next codec scope w event = some w'

/-- The recorded revision moves forward. -/
def Forward (w w' : ApplyHistory) : Prop :=
  w.agent.db.status.Forward w'.agent.db.status

/-- A step moves the recorded revision forward, and a success is what is recorded then. -/
structure Later (w w' : ApplyHistory) : Prop where
  forward : w.Forward w'
  successes : w'.successes = w.successes ∨ w'.successes = w.successes ++
    [(w'.agent.db.status.appliedRevision, w'.agent.db.status.appliedHash)]

/-- Every step goes forward. -/
theorem later_step {event : ApplyEvent} (hstep : Step codec scope w event w') : w.Later w' := by
  cases event with
  | apply c envelope =>
      obtain rfl : w.record (applyLocked codec scope c envelope w.agent) = w' :=
        Option.some.inj hstep
      have hspec := applyLocked_spec (c := c) (a := w.agent) codec scope envelope
      revert hspec
      unfold Tx.wp
      rcases applyLocked codec scope c envelope w.agent with ⟨e | res, a⟩
      · exact fun h => ⟨h.forward, .inl rfl⟩
      · intro h
        refine ⟨h.forward, .inr ?_⟩
        simp only [record, h.status]
  | meanwhile a =>
      simp only [Step, next] at hstep
      split at hstep <;> rename_i hstate
      · cases hstep
        refine ⟨?_, .inl rfl⟩
        rw [Forward, status_of_state hstate]
        exact .refl _
      · cases hstep

/-- What was applied under a revision was applied with its hash. -/
structure Inv (w : ApplyHistory) : Prop where
  behind : ∀ p ∈ w.successes, p.1 < w.agent.db.status.appliedRevision ∨
    p.1 = w.agent.db.status.appliedRevision ∧ p.2 = w.agent.db.status.appliedHash
  hash : ∀ p ∈ w.successes, ∀ q ∈ w.successes, p.1 = q.1 → p.2 = q.2

theorem inv_start (a : Agent) : (start a).Inv :=
  ⟨fun _ hp => (List.not_mem_nil hp).elim, fun _ hp => (List.not_mem_nil hp).elim⟩

theorem Inv.step {event : ApplyEvent} (h : w.Inv) (hstep : Step codec scope w event w') :
    w'.Inv := by
  have hlater := later_step hstep
  have hbehind : ∀ p ∈ w.successes, p.1 < w'.agent.db.status.appliedRevision ∨
      p.1 = w'.agent.db.status.appliedRevision ∧ p.2 = w'.agent.db.status.appliedHash := by
    intro p hp
    rcases h.behind p hp with hlt | ⟨heq, hhash⟩
    · exact .inl (hlt.trans_le hlater.forward.le)
    · rcases hlater.forward with hlt | ⟨heq', hhash'⟩
      · exact .inl (heq ▸ hlt)
      · exact .inr ⟨heq.trans heq', hhash.trans hhash'⟩
  have hnew : ∀ p ∈ w.successes, p.1 = w'.agent.db.status.appliedRevision →
      p.2 = w'.agent.db.status.appliedHash := by
    intro p hp heq
    rcases hbehind p hp with hlt | ⟨-, hhash⟩
    · exact absurd heq hlt.ne
    · exact hhash
  rcases hlater.successes with hsame | hadded
  · constructor
    · exact fun p hp => hbehind p (hsame ▸ hp)
    · exact fun p hp q hq => h.hash p (hsame ▸ hp) q (hsame ▸ hq)
  · constructor
    · intro p hp
      rw [hadded, List.mem_append, List.mem_singleton] at hp
      rcases hp with hp | rfl
      · exact hbehind p hp
      · exact .inr ⟨rfl, rfl⟩
    · intro p hp q hq heq
      rw [hadded, List.mem_append, List.mem_singleton] at hp hq
      rcases hp with hp | rfl
      · rcases hq with hq | rfl
        · exact h.hash p hp q hq heq
        · exact hnew p hp heq
      · rcases hq with hq | rfl
        · exact (hnew q hq heq.symm).symm
        · rfl

end ApplyHistory

open ApplyHistory

/-- Over every sequence of envelopes: the recorded revision never decreases; two
successes under one revision have one hash; an application that raises leaves every
table and the applied revision as they were, but for counted bytes, unless the tables
could not be restored; and a successful one carries the counters on.  In both cases the bytes
that are added are exactly those of {lit}`Course.counts`. -/
theorem desired_state_atomic {codec : Codec} {scope : String} {es es' : List ApplyEvent}
    {w w' : ApplyHistory} (hrun : Run (Step codec scope) (start a) es w)
    (hlater : Run (Step codec scope) w es' w') :
    w.agent.db.status.appliedRevision ≤ w'.agent.db.status.appliedRevision ∧
      (∀ p ∈ w.successes, ∀ q ∈ w.successes, p.1 = q.1 → p.2 = q.2) ∧
      ∀ c envelope,
        (∀ e t, applyLocked codec scope c envelope w.agent = (.error e, t) →
          c.restore = none → Kept (c.counts codec scope envelope w.agent false) w.agent t) ∧
        ∀ res t, applyLocked codec scope c envelope w.agent = (.ok res, t) →
          t.db.status = ⟨res.appliedRevision, res.appliedHash, ""⟩ ∧
            Carried (c.counts codec scope envelope w.agent true) w.agent t := by
  have hinv : w.Inv := hrun.invariant (inv_start a) fun _ _ _ => Inv.step
  have hforward : w.Forward w' :=
    hlater.related hinv (fun _ _ _ => Inv.step) (fun _ => .refl _) (fun _ _ _ => .trans)
      fun _ _ _ _ hstep => (later_step hstep).forward
  refine ⟨hforward.le, hinv.hash, fun c envelope => ?_⟩
  have hspec := applyLocked_spec (c := c) (a := w.agent) codec scope envelope
  constructor
  · intro e t happly
    exact (Tx.wp_error hspec happly).kept
  · intro res t happly
    have haccepted := Tx.wp_ok hspec happly
    exact ⟨haccepted.status, haccepted.carried⟩

/-! ## Bytes of a failed generation -/

/-- A codec under which every document has the same digest. -/
def plainCodec : Codec where
  encodedSize _ := 0
  digest _ := String.ofList (List.replicate 64 'a')
  decode64 _ := none
  sha256 _ := ""

/-- An envelope with one client of one inbound. -/
def firstEnvelope : Doc Scalar :=
  .dict [("revision", numberDoc 1), ("hash", textDoc (String.ofList (List.replicate 64 'a'))),
    ("payload", .dict [("schema", numberDoc 1), ("nodeId", textDoc "node"),
      ("sections", .dict (stateSections.map fun name => (name, .dict []))),
      ("assignments", .list [.dict [("sourceInboundId", numberDoc 5), ("inbound", .dict []),
        ("clients", .list [])]]),
      ("security", .dict [])])]

/-- An Agent that serves one client on one inbound. -/
def servingAgent : Agent where
  db :=
    { coreInbounds := Table.empty.insert 5 (.dict [])
      coreClients := Table.empty.insert "mirror" ⟨.dict [], [5], 7, 9⟩
      coreSections := .empty
      owners := .empty
      clients := Table.empty.insert "mirror" ⟨"_hub", 0, false, false⟩
      observations := []
      coreDevices := []
      runtimeInbounds := Table.empty.insert 5 ⟨5, "", 0⟩
      runtimeClients := Table.empty.insert "client" ⟨"mirror", 0⟩
      control := some ⟨true, false⟩
      state := none
      ordered := false }
  engine := ⟨true, true, "old"⟩

/-- A command of the engine that only reads some statistics. -/
def countingRun (samples : List Sample) : EngineRun :=
  ⟨samples, none, ⟨true, true, "new"⟩⟩

/-- The new generation starts and serves the client; then the second transaction
raises, or nothing does. -/
def servingCourse (secondTransaction : Option Failure) : Course where
  model := .ok ⟨[⟨5, "", .dict [], [⟨"client", "mirror", .dict []⟩]⟩], [], "new"⟩
  allowed := true
  autostart := true
  now := 1
  rewrite := .ok
  reconcile := countingRun []
  reconcileGuard := none
  identities := none
  collect := countingRun []
  stop := countingRun []
  snapshot := none
  guardPorts := .ok false
  materialize := none
  firstTransaction := none
  start := countingRun []
  validate := countingRun []
  secondTransaction := secondTransaction
  assignmentStatus := none
  restore := none
  restoreGuard := none
  rollback := countingRun [⟨"mirror", 100, 50⟩]
  recordError := none

/-- The bytes of a generation that was started and rolled back stay counted, although
the old generation had nothing left to count. -/
theorem failed_apply_counts :
    (servingCourse (some .databaseError)).stop.samples = [] ∧
      (applyLocked plainCodec "node" (servingCourse (some .databaseError)) firstEnvelope
        servingAgent).1.toOption = none ∧
      servingAgent.db.counters "mirror" = (7, 9) ∧
      (applyLocked plainCodec "node" (servingCourse (some .databaseError)) firstEnvelope
        servingAgent).2.db.counters "mirror" = (107, 59) := by
  decide +kernel

/-- The old generation has bytes left to count, and the second transaction raises. -/
def countedCourse : Course :=
  { servingCourse (some .databaseError) with stop := countingRun [⟨"mirror", 3, 4⟩] }

/-- An envelope that is applied, and one whose application fails. -/
theorem desired_state_atomic_applied :
    (∃ w : ApplyHistory, (1, plainCodec.digest (.atom .null)) ∈ w.successes ∧
      ∀ p ∈ w.successes, p.1 = 1 → p.2 = plainCodec.digest (.atom .null)) ∧
    ∃ e t, applyLocked plainCodec "node" countedCourse firstEnvelope servingAgent = (.error e, t) ∧
      Kept [⟨"mirror", 3, 4⟩, ⟨"mirror", 100, 50⟩] servingAgent t := by
  constructor
  · have heval : ((start servingAgent).next plainCodec "node"
        (.apply (servingCourse none) firstEnvelope)).map ApplyHistory.successes =
          some [(1, plainCodec.digest (.atom .null))] := by
      decide +kernel
    rcases Option.map_eq_some_iff.mp heval with ⟨w, hstep, hsuccesses⟩
    have hmem : (1, plainCodec.digest (.atom .null)) ∈ w.successes := by
      rw [hsuccesses]
      exact List.mem_singleton_self _
    have hatomic := desired_state_atomic (Run.single hstep) Run.nil
    exact ⟨w, hmem, fun p hp hone => hatomic.2.1 p hp _ hmem hone⟩
  · have hraises : (applyLocked plainCodec "node" countedCourse firstEnvelope
          servingAgent).1.toOption = none ∧
        countedCourse.counts plainCodec "node" firstEnvelope servingAgent false =
          [⟨"mirror", 3, 4⟩, ⟨"mirror", 100, 50⟩] := by
      decide +kernel
    obtain ⟨hnone, hcounts⟩ := hraises
    have hrun : Run (Step plainCodec "node") (start servingAgent) [] (start servingAgent) := Run.nil
    have hatomic := (desired_state_atomic hrun Run.nil).2.2 countedCourse firstEnvelope
    rcases happly : applyLocked plainCodec "node" countedCourse firstEnvelope servingAgent
      with ⟨e | res, t⟩
    · exact ⟨e, t, rfl, hcounts ▸ hatomic.1 e t happly rfl⟩
    · rw [happly] at hnone
      cases hnone

end Nodes
end DarkXray
