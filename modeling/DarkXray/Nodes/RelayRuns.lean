import DarkXray.Library.Frames
import DarkXray.Library.Runs
import DarkXray.Nodes.Relays

/-!
# Runs of the exit routes

Calls on exit routes follow each other in any order, with any outcomes of their exchanges.
What a call may do is said once for each kind of call; the guarantees follow from that.

Main results:

- Theorems {lit}`enable_cases`, {lit}`disable_cases` and {lit}`delete_cases`: what a call
  writes, and after which exchanges.
- Theorem {lit}`callSound_iff`: a call keeps its guarantees exactly if it neither closes a
  cycle nor strands a credential.
- Theorem {lit}`relays_sound`: in every run of such calls.
- Theorems {lit}`moved_route_strands` and {lit}`deletion_closes_cycle`: calls that do not.
- Theorem {lit}`unmoved_at_exits`: a Node other than the exit of a route holds its credential
  only after the route was moved.
-/

namespace DarkXray
namespace Nodes

open Library

/-! ## Guarantees -/

/-- A route whose source has no listener rule any more. -/
def Fleet.Quiet (f : Fleet) (route : Route) : Prop :=
  ∀ row, f.rows.get? route = some row →
    row.enabled = false ∧ (row.phase = .disabled ∨ row.phase = .deleting)

/-- The invariant that every call keeps. -/
structure Fleet.Tidy (f : Fleet) : Prop where
  identities : ∀ a b row row', f.rows.get? a = some row → f.rows.get? b = some row' →
    row.identity = row'.identity → a = b
  quiet : ∀ route, f.Quiet route → route ∉ (f.acked route.1).listeners

/-- What a call guarantees, with the result that it has. -/
structure Guarantees (f : Fleet) (call : RelayCall) (returns : Bool) (d : RelayDesk) : Prop where
  /-- After each of its writes the routes form no cycle. -/
  acyclic : ∀ rows ∈ d.moments, CycleFree (activeEdges rows)
  /-- A route becomes enabled after the source and then the exit have acknowledged; the exit
  holds its credential and its direct rule. -/
  enabled : ∀ route row, d.fleet.rows.get? route = some row → row.enabled = true →
    (∃ old, f.rows.get? route = some old ∧ old.enabled = true) ∨
      ∃ c c' rest, d.syncs = (route.1, some c) :: (row.exitNode, some c') :: rest ∧
        row.identity ∈ c'.clients ∧ row.identity ∈ c'.exits
  /-- A route moves only while its source has no listener rule. -/
  moved : ∀ route old row, f.rows.get? route = some old → d.fleet.rows.get? route = some row →
    (row.exitNode, row.exitInbound) ≠ (old.exitNode, old.exitInbound) →
      route ∉ (f.acked route.1).listeners
  /-- No Node keeps the credential of a deleted route. -/
  deleted : ∀ route row, call = .delete route → returns = true → f.rows.get? route = some row →
    ∀ nodeId, row.identity ∉ (d.fleet.acked nodeId).clients

/-- The guarantees of a call with what it meets. -/
def CallSound (f : Fleet) (e : RelayEvent) : Prop :=
  Guarantees f e.call (f.perform e).1.isOk (f.perform e).2

/-- A route that is off comes to count for a cycle, and closes one. -/
def Closes (f : Fleet) (route : Route) : Prop :=
  ∃ row, f.rows.get? route = some row ∧ row.active = false ∧
    ¬ CycleFree ((route.1, row.exitNode) :: activeEdges f.rows)

/-- A deletion that returns leaves the credential on a Node that is not the exit. -/
def Strands (f : Fleet) (outcomes : List SyncOutcome) (route : Route) : Prop :=
  ∃ row nodeId, f.rows.get? route = some row ∧ row.enabled = false ∧
    (row.phase = .disabled ∨ row.phase = .deleting) ∧ outcomes.head? = some .acknowledged ∧
    nodeId ≠ row.exitNode ∧ row.identity ∈ (f.acked nodeId).clients

/-- The condition of a call. -/
def RelayOk (f : Fleet) (e : RelayEvent) : Prop :=
  match e.call with
  | .toggle route false => ¬ Closes f route
  | .delete route => ¬ Closes f route ∧ ¬ Strands f e.outcomes route
  | _ => True

/-! ## The invariant -/

section Invariant

variable {f : Fleet} {route : Route}

/-- A route that is off has no listener rule in a new state. -/
theorem not_listening {rows : Table Route RelayRow} (e : Estate) (nodeId : String)
    (hoff : ∀ row, rows.get? route = some row → row.enabled = false) :
    route ∉ (relayConfig e rows nodeId).listeners := by
  intro hmem
  obtain ⟨r, hr, hlistens⟩ := List.mem_filterMap.mp hmem
  by_cases hcond : (r.1.1 = nodeId && r.2.enabled && (e.inbounds r.1.2).isSome) = true
  · rw [if_pos hcond, Option.some.injEq] at hlistens
    subst hlistens
    simp only [Bool.and_eq_true] at hcond
    rw [hoff r.2 (Table.get?_eq_some_iff.mpr hr)] at hcond
    cases hcond.1.2
  · rw [if_neg hcond] at hlistens
    cases hlistens

/-- The clients of a new state are routes that are not being deleted. -/
theorem exists_of_mem_clients {rows : Table Route RelayRow} {e : Estate} {nodeId identity : String}
    (h : identity ∈ (relayConfig e rows nodeId).clients) :
    ∃ r row, rows.get? r = some row ∧ row.phase ≠ .deleting ∧ row.identity = identity := by
  obtain ⟨r, hr, hclient⟩ := List.mem_filterMap.mp h
  by_cases hcond : (exitsAt e nodeId r.2 &&
      ((e.nodes nodeId).any fun node => r.2.exitInbound ∈ node.inboundIds)) = true
  · rw [if_pos hcond, Option.some.injEq] at hclient
    simp only [exitsAt, Bool.and_eq_true, decide_eq_true_eq] at hcond
    exact ⟨r.1, r.2, Table.get?_eq_some_iff.mpr hr, hcond.1.1.2, hclient⟩
  · rw [if_neg hcond] at hclient
    cases hclient

/-- The credential and the direct rule of a route at a reachable exit. -/
theorem mem_exit {rows : Table Route RelayRow} {e : Estate} {row : RelayRow}
    (hrow : rows.get? route = some row) (hphase : row.phase ≠ .deleting)
    (hreach : (relayDestination e row.exitNode row.exitInbound).isOk = true) :
    row.identity ∈ (relayConfig e rows row.exitNode).clients ∧
      row.identity ∈ (relayConfig e rows row.exitNode).exits := by
  have hexits : exitsAt e row.exitNode row = true := by simp [exitsAt, hphase, hreach]
  have hmem := Table.get?_eq_some_iff.mp hrow
  constructor
  · refine List.mem_filterMap.mpr ⟨(route, row), hmem, if_pos ?_⟩
    rw [hexits, destination_assigned hreach]
    rfl
  · exact List.mem_filterMap.mpr ⟨(route, row), hmem, if_pos hexits⟩

/-- An exchange keeps the invariant. -/
theorem Fleet.Tidy.sync (h : f.Tidy) (e : Estate) (nodeId : String) :
    Fleet.Tidy { f with acked := Function.update f.acked nodeId (relayConfig e f.rows nodeId) } where
  identities := h.identities
  quiet := by
    intro route hquiet
    by_cases hnode : route.1 = nodeId
    · subst hnode
      dsimp only
      rw [Function.update_self]
      exact not_listening e route.1 fun row hrow => (hquiet row hrow).1
    · dsimp only
      rw [Function.update_of_ne hnode]
      exact h.quiet route hquiet

/-- A change of one route keeps the invariant if its identity stays or is new, and its source
has no listener rule when it is off. -/
theorem Fleet.Tidy.change {rows : Table Route RelayRow} {x : Option RelayRow} (h : f.Tidy)
    (hchanged : Changed f.rows rows route x)
    (hidentity : ∀ row, x = some row → ∀ r row', r ≠ route → f.rows.get? r = some row' →
      row.identity ≠ row'.identity)
    (hquiet : (∀ row, x = some row → row.enabled = false ∧
        (row.phase = .disabled ∨ row.phase = .deleting)) →
      route ∉ (f.acked route.1).listeners) : Fleet.Tidy { f with rows := rows } where
  identities := by
    intro a b row row' ha hb hsame
    by_cases haroute : a = route
    · by_cases hbroute : b = route
      · rw [haroute, hbroute]
      · subst haroute
        exact absurd hsame (hidentity row (hchanged.at_route.symm.trans ha) b row' hbroute
          ((hchanged.others b hbroute).symm.trans hb))
    · by_cases hbroute : b = route
      · subst hbroute
        exact absurd hsame.symm (hidentity row' (hchanged.at_route.symm.trans hb) a row haroute
          ((hchanged.others a haroute).symm.trans ha))
      · exact h.identities a b row row' ((hchanged.others a haroute).symm.trans ha)
          ((hchanged.others b hbroute).symm.trans hb) hsame
  quiet := by
    intro r hr
    by_cases hroute : r = route
    · subst hroute
      exact hquiet fun row hrow => hr row (hchanged.at_route.trans hrow)
    · exact h.quiet r fun row hrow => hr row ((hchanged.others r hroute).trans hrow)

end Invariant

/-! ## What each call does -/

/-- A call has written nothing; exchanges may have taken place. -/
structure Idle (f : Fleet) (d : RelayDesk) : Prop where
  rows : d.fleet.rows = f.rows
  moments : d.moments = []

/-- A call has changed one route, at every moment to a row of a certain kind. -/
structure Wrote (f : Fleet) (route : Route) (kind : Option RelayRow → Prop) (d : RelayDesk) :
    Prop where
  moments : ∀ rows ∈ d.moments, ∃ x, kind x ∧ Changed f.rows rows route x
  last : d.fleet.rows ∈ d.moments

section Cases

variable {f : Fleet} {e : RelayEvent} {route : Route}

/-- A change of the state of a route keeps the invariant. -/
theorem Fleet.Tidy.state (h : f.Tidy) (route : Route) (enabled : Bool) (phase : RelayPhase)
    (hquiet : enabled = false → phase = .disabled ∨ phase = .deleting →
      route ∉ (f.acked route.1).listeners) :
    Fleet.Tidy { f with
      rows := f.rows.update route fun r => { r with enabled := enabled, phase := phase } } := by
  cases hrow : f.rows.get? route with
  | none =>
      have hsame : ∀ r, (f.rows.update route fun r =>
          { r with enabled := enabled, phase := phase }).get? r = f.rows.get? r := by
        intro r
        rw [Table.get?_update]
        split <;> rename_i hr
        · rw [hr, hrow]
          rfl
        · rfl
      apply h.change ⟨(hsame route).trans hrow, fun r _ => hsame r⟩
      · intro row hnone
        cases hnone
      · intro _
        apply h.quiet route
        intro row hsome
        rw [hrow] at hsome
        cases hsome
  | some row =>
      apply h.change (changed_update _ hrow)
      · rintro row' hrow' r other hr hother hsame
        obtain rfl := Option.some.inj hrow'
        exact hr (h.identities route r row other hrow hother hsame).symm
      · intro hoff
        obtain ⟨henabled, hphase⟩ := hoff _ rfl
        exact hquiet henabled hphase

/-- The rows of a route that is being enabled. -/
def TurnedOn (row : RelayRow) (x : Option RelayRow) : Prop :=
  ∃ phase, (phase = .enabling ∨ phase = .enabled) ∧
    x = some { row with enabled := true, phase := phase }

/-- What {lit}`toggle` writes to enable a route, and after which exchanges. -/
def Enables (f : Fleet) (e : RelayEvent) (route : Route) (d : RelayDesk) : Prop :=
  d.fleet.Tidy ∧ (Idle f d ∨ ∃ row c rest, f.rows.get? route = some row ∧ row.phase ≠ .deleting ∧
    (∃ u, validateRelay e.estate f.rows route row.exitNode row.exitInbound = .ok u) ∧
    d.syncs = (route.1, some c) ::
      (row.exitNode, some (relayConfig e.estate f.rows row.exitNode)) :: rest ∧
    Wrote f route (TurnedOn row) d)

theorem enable_cases (h : f.Tidy) :
    (enableRelay route).wp (fun _ d => Enables f e route d) (fun _ d => Enables f e route d)
      (f.desk e) := by
  unfold enableRelay relayRow checkRelay
  simp only [Tx.wp_bind, Tx.wp_read, Tx.wp_demand, Tx.wp_require, Tx.wp_ofExcept]
  have hidle : Enables f e route (f.desk e) := ⟨h, Or.inl ⟨rfl, rfl⟩⟩
  refine ⟨fun row hrow => ⟨fun hphase => ⟨fun _ => ⟨fun u hvalid => ?_, fun _ _ => hidle⟩,
    fun _ => hidle⟩, fun _ => hidle⟩, fun _ => hidle⟩
  apply wp_synchronize
  · exact fun _ _ => ⟨h, Or.inl ⟨rfl, rfl⟩⟩
  · exact fun _ => ⟨fun hno => (by cases hno), fun _ => ⟨h, Or.inl ⟨rfl, rfl⟩⟩⟩
  intro _
  have h₁ := h.sync e.estate route.1
  refine ⟨fun _ => ?_, fun hno => absurd rfl hno⟩
  apply wp_synchronize
  · exact fun _ _ => ⟨h₁, Or.inl ⟨rfl, rfl⟩⟩
  · exact fun _ => ⟨fun hno => (by cases hno), fun _ => ⟨h₁, Or.inl ⟨rfl, rfl⟩⟩⟩
  intro _
  have h₂ := h₁.sync e.estate row.exitNode
  refine ⟨fun _ => ?_, fun hno => absurd rfl hno⟩
  unfold writeState writeRows
  simp only [Tx.wp_write]
  have h₃ := h₂.state route true .enabling (fun hno => by cases hno)
  have hfirst := changed_update (fun r => { r with enabled := true, phase := .enabling }) hrow
  have hmoment : ∃ x, TurnedOn row x ∧ Changed f.rows (f.rows.update route fun r =>
      { r with enabled := true, phase := .enabling }) route x :=
    ⟨_, ⟨.enabling, Or.inl rfl, rfl⟩, hfirst⟩
  apply wp_synchronize
  · refine fun _ _ => ⟨h₃, Or.inr ⟨row, _, _, hrow, hphase, ⟨u, hvalid⟩, rfl, ?_, ?_⟩⟩
    · intro rows hrows
      obtain rfl := List.mem_singleton.mp hrows
      exact hmoment
    · exact List.mem_singleton_self _
  · refine fun _ => ⟨fun hno => (by cases hno),
      fun _ => ⟨h₃, Or.inr ⟨row, _, _, hrow, hphase, ⟨u, hvalid⟩, rfl, ?_, ?_⟩⟩⟩
    · intro rows hrows
      obtain rfl := List.mem_singleton.mp hrows
      exact hmoment
    · exact List.mem_singleton_self _
  intro _
  have h₄ := h₃.sync e.estate route.1
  refine ⟨fun _ => ?_, fun hno => absurd rfl hno⟩
  have h₅ := h₄.state route true .enabled (fun hno => by cases hno)
  refine ⟨h₅, Or.inr ⟨row, _, _, hrow, hphase, ⟨u, hvalid⟩, rfl, ?_, ?_⟩⟩
  · intro rows hrows
    rcases List.mem_append.mp hrows with hold | hnew
    · obtain rfl := List.mem_singleton.mp hold
      exact hmoment
    · obtain rfl := List.mem_singleton.mp hnew
      have hsecond := changed_update (fun r => { r with enabled := true, phase := .enabled })
        hfirst.at_route
      exact ⟨_, ⟨.enabled, Or.inr rfl, rfl⟩, hfirst.trans hsecond⟩
  · exact List.mem_append_right _ (List.mem_singleton_self _)

/-- The rows of a route that is being disabled. -/
def TurnedOff (row : RelayRow) (x : Option RelayRow) : Prop :=
  ∃ phase, (phase = .disabling ∨ phase = .disabled) ∧
    x = some { row with enabled := false, phase := phase }

/-- What {lit}`toggle` writes to disable a route. -/
def Disables (f : Fleet) (route : Route) (d : RelayDesk) : Prop :=
  d.fleet.Tidy ∧ ((Idle f d ∧ ∀ row, f.rows.get? route = some row → row.active = true) ∨
    ∃ row rest, f.rows.get? route = some row ∧
      d.moments = (f.rows.update route fun r => { r with enabled := false, phase := .disabling }) ::
        rest ∧ Wrote f route (TurnedOff row) d)

theorem disable_cases (h : f.Tidy) :
    (disableRelay route).wp (fun _ d => Disables f route d) (fun _ d => Disables f route d)
      (f.desk e) := by
  unfold disableRelay relayRow
  simp only [Tx.wp_bind, Tx.wp_read, Tx.wp_demand, Tx.wp_require]
  refine ⟨fun row hrow => ⟨fun hphase => ?_, fun hphase => ?_⟩, fun hnone => ?_⟩
  · unfold writeState writeRows
    simp only [Tx.wp_write]
    have h₁ := h.state route false .disabling (fun _ hno => by rcases hno with hno | hno <;> cases hno)
    have hfirst := changed_update (fun r => { r with enabled := false, phase := .disabling }) hrow
    have hmoment : ∃ x, TurnedOff row x ∧ Changed f.rows (f.rows.update route fun r =>
        { r with enabled := false, phase := .disabling }) route x :=
      ⟨_, ⟨.disabling, Or.inl rfl, rfl⟩, hfirst⟩
    have hstarted : ∀ d : RelayDesk, d.fleet.Tidy → d.fleet.rows = (f.rows.update route fun r =>
        { r with enabled := false, phase := .disabling }) → d.moments = [f.rows.update route fun r =>
          { r with enabled := false, phase := .disabling }] → Disables f route d := by
      intro d hd hrows hmoments
      refine ⟨hd, Or.inr ⟨row, [], hrow, hmoments, ?_, ?_⟩⟩
      · intro rows hmem
        rw [hmoments] at hmem
        obtain rfl := List.mem_singleton.mp hmem
        exact hmoment
      · rw [hmoments, hrows]
        exact List.mem_singleton_self _
    apply wp_synchronize
    · exact fun _ _ => hstarted _ h₁ rfl rfl
    · exact fun _ => ⟨fun hno => (by cases hno), fun _ => hstarted _ h₁ rfl rfl⟩
    intro _
    have h₂ := h₁.sync e.estate route.1
    refine ⟨fun _ => ?_, fun hno => absurd rfl hno⟩
    have hsecond := changed_update (fun r => { r with enabled := false, phase := .disabled })
      hfirst.at_route
    -- the source has just acknowledged a state without the listener rule
    have hsilent : route ∉ (relayConfig e.estate (f.rows.update route fun r =>
        { r with enabled := false, phase := .disabling }) route.1).listeners := by
      apply not_listening
      intro row' hrow'
      obtain rfl := Option.some.inj (hfirst.at_route.symm.trans hrow')
      rfl
    have h₃ := h₂.state route false .disabled (fun _ _ => by
      dsimp only
      rw [Function.update_self]
      exact hsilent)
    refine ⟨h₃, Or.inr ⟨row, _, hrow, rfl, ?_, ?_⟩⟩
    · intro rows hrows
      rcases List.mem_append.mp hrows with hold | hnew
      · obtain rfl := List.mem_singleton.mp hold
        exact hmoment
      · obtain rfl := List.mem_singleton.mp hnew
        exact ⟨_, ⟨.disabled, Or.inr rfl, rfl⟩, hfirst.trans hsecond⟩
    · exact List.mem_append_right _ (List.mem_singleton_self _)
  · refine ⟨h, Or.inl ⟨⟨rfl, rfl⟩, fun row' hrow' => ?_⟩⟩
    obtain rfl := Option.some.inj (hrow.symm.trans hrow')
    rw [not_not] at hphase
    simp [RelayRow.active, hphase]
  · refine ⟨h, Or.inl ⟨⟨rfl, rfl⟩, fun row' hrow' => ?_⟩⟩
    cases hnone.symm.trans hrow'

/-- The rows of a route that is being deleted. -/
def Dropped (row : RelayRow) (x : Option RelayRow) : Prop :=
  x = some { row with enabled := false, phase := .deleting } ∨ x = none

/-- What {lit}`delete` writes, and what has been acknowledged when it returns. -/
def Deletes (f : Fleet) (e : RelayEvent) (route : Route) (returns : Bool) (d : RelayDesk) : Prop :=
  d.fleet.Tidy ∧ ((Idle f d ∧ returns = false ∧ ∀ row, f.rows.get? route = some row →
      ¬ (row.enabled = false ∧ (row.phase = .disabled ∨ row.phase = .deleting))) ∨
    ∃ row rest, f.rows.get? route = some row ∧ row.enabled = false ∧
      (row.phase = .disabled ∨ row.phase = .deleting) ∧
      d.moments = (f.rows.update route fun r => { r with enabled := false, phase := .deleting }) ::
        rest ∧ Wrote f route (Dropped row) d ∧
      (returns = true ↔ e.outcomes.head? = some .acknowledged) ∧
      (returns = true → (∀ nodeId, nodeId ≠ row.exitNode → d.fleet.acked nodeId = f.acked nodeId) ∧
        row.identity ∉ (d.fleet.acked row.exitNode).clients))

theorem delete_cases (h : f.Tidy) :
    (deleteRelay route).wp (fun _ d => Deletes f e route true d)
      (fun _ d => Deletes f e route false d) (f.desk e) := by
  unfold deleteRelay relayRow
  simp only [Tx.wp_bind, Tx.wp_read, Tx.wp_demand, Tx.wp_require]
  refine ⟨fun row hrow => ⟨fun hoff => ?_, fun hon => ?_⟩, fun hnone => ?_⟩
  · unfold writeState writeRows
    simp only [Tx.wp_write]
    have hsilent : route ∉ (f.acked route.1).listeners := by
      apply h.quiet route
      intro row' hrow'
      obtain rfl := Option.some.inj (hrow.symm.trans hrow')
      exact hoff
    have h₁ := h.state route false .deleting (fun _ _ => hsilent)
    have hfirst := changed_update (fun r => { r with enabled := false, phase := .deleting }) hrow
    have hmoment : ∃ x, Dropped row x ∧ Changed f.rows (f.rows.update route fun r =>
        { r with enabled := false, phase := .deleting }) route x :=
      ⟨_, Or.inl rfl, hfirst⟩
    have hstarted : ∀ d : RelayDesk, d.fleet.Tidy → d.fleet.rows = (f.rows.update route fun r =>
        { r with enabled := false, phase := .deleting }) → d.moments = [f.rows.update route fun r =>
          { r with enabled := false, phase := .deleting }] →
            e.outcomes.head? ≠ some .acknowledged → Deletes f e route false d := by
      intro d hd hrows hmoments hhead
      refine ⟨hd, Or.inr ⟨row, [], hrow, hoff.1, hoff.2, hmoments, ⟨?_, ?_⟩,
        ⟨fun hno => (by cases hno), fun hyes => absurd hyes hhead⟩, fun hno => by cases hno⟩⟩
      · intro rows hmem
        rw [hmoments] at hmem
        obtain rfl := List.mem_singleton.mp hmem
        exact hmoment
      · rw [hmoments, hrows]
        exact List.mem_singleton_self _
    apply wp_synchronize
    · exact fun hhead _ => hstarted _ h₁ rfl rfl hhead
    · exact fun hhead => ⟨fun hno => (by cases hno), fun _ => hstarted _ h₁ rfl rfl hhead⟩
    intro hhead
    have h₂ := h₁.sync e.estate row.exitNode
    refine ⟨fun _ => ?_, fun hno => absurd rfl hno⟩
    have hgone : Changed (f.rows.update route fun r => { r with enabled := false, phase := .deleting })
        ((f.rows.update route fun r => { r with enabled := false, phase := .deleting }).erase route)
        route none := changed_erase
    have h₃ := h₂.change hgone (fun _ hno => by cases hno) (fun _ => by
      apply h₂.quiet route
      intro row' hrow'
      obtain rfl := Option.some.inj (hfirst.at_route.symm.trans hrow')
      exact ⟨rfl, Or.inr rfl⟩)
    refine ⟨h₃, Or.inr ⟨row, _, hrow, hoff.1, hoff.2, rfl, ⟨?_, ?_⟩, ⟨fun _ => hhead, fun _ => rfl⟩,
      fun _ => ⟨fun nodeId hother => Function.update_of_ne hother _ _, ?_⟩⟩⟩
    · intro rows hrows
      rcases List.mem_append.mp hrows with hold | hnew
      · obtain rfl := List.mem_singleton.mp hold
        exact hmoment
      · obtain rfl := List.mem_singleton.mp hnew
        exact ⟨none, Or.inr rfl, hfirst.trans hgone⟩
    · exact List.mem_append_right _ (List.mem_singleton_self _)
    · -- the exit has just acknowledged a state without the credential
      intro hmem
      dsimp only at hmem
      rw [Function.update_self] at hmem
      obtain ⟨r, row', hrow', hphase, hidentity⟩ := exists_of_mem_clients hmem
      obtain rfl := h₁.identities r route row' _ hrow' hfirst.at_route hidentity
      obtain rfl := Option.some.inj (hfirst.at_route.symm.trans hrow')
      exact hphase rfl
  · refine ⟨h, Or.inl ⟨⟨rfl, rfl⟩, rfl, fun row' hrow' => ?_⟩⟩
    obtain rfl := Option.some.inj (hrow.symm.trans hrow')
    exact hon
  · refine ⟨h, Or.inl ⟨⟨rfl, rfl⟩, rfl, fun row' hrow' => ?_⟩⟩
    cases hnone.symm.trans hrow'

/-- What {lit}`configure` writes: a route that is off. -/
def Configures (f : Fleet) (route : Route) (d : RelayDesk) : Prop :=
  d.fleet.Tidy ∧ (Idle f d ∨ ((∀ old, f.rows.get? route = some old → old.active = false) ∧
    Wrote f route (fun x => ∃ row, x = some row ∧ row.active = false) d))

theorem configure_cases {exitNode identity credential : String} {exitInbound : ℕ} (h : f.Tidy) :
    (configureRelay route exitNode exitInbound identity credential).wp
      (fun _ d => Configures f route d) (fun _ d => Configures f route d) (f.desk e) := by
  unfold configureRelay checkRelay
  simp only [Tx.wp_bind, Tx.wp_read, Tx.wp_require, Tx.wp_ofExcept]
  have hidle : Configures f route (f.desk e) := ⟨h, Or.inl ⟨rfl, rfl⟩⟩
  refine ⟨fun hoff => ⟨fun _ _ => ⟨fun hfresh => ?_, fun _ => hidle⟩, fun _ _ => hidle⟩,
    fun _ => hidle⟩
  have hquiet : ∀ old, f.rows.get? route = some old → old.active = false := by
    intro old hold
    cases hactive : old.active with
    | false => rfl
    | true => exact absurd ⟨old, hold, hactive⟩ hoff
  have hchanged := changed_upsert f.rows route
    ⟨exitNode, exitInbound, identity, credential, false, .disabled⟩
    (fun r => { r with exitNode := exitNode, exitInbound := exitInbound })
  have hkind : ∃ row, ((f.rows.get? route).map fun r : RelayRow =>
        { r with exitNode := exitNode, exitInbound := exitInbound }).getD
          ⟨exitNode, exitInbound, identity, credential, false, .disabled⟩ = row ∧
      row.active = false := by
    refine ⟨_, rfl, ?_⟩
    cases hold : f.rows.get? route with
    | none => rfl
    | some old => exact hquiet old hold
  obtain ⟨row, hrow, hactive⟩ := hkind
  rw [hrow] at hchanged
  refine ⟨h.change hchanged ?_ ?_, Or.inr ⟨hquiet, ?_, List.mem_singleton_self _⟩⟩
  · rintro row' hrow' r other hr hother hsame
    obtain rfl := Option.some.inj hrow'
    cases hold : f.rows.get? route with
    | none =>
        rw [hold] at hrow
        subst hrow
        exact hfresh hold (r, other) (Table.get?_eq_some_iff.mp hother) hsame.symm
    | some old =>
        rw [hold] at hrow
        subst hrow
        exact hr (h.identities route r old other hold hother hsame).symm
  · intro _
    apply h.quiet route
    intro old hold
    have hinactive := hquiet old hold
    simp only [RelayRow.active, Bool.or_eq_false_iff, decide_eq_false_iff_not, ne_eq,
      not_not] at hinactive
    exact ⟨hinactive.1, Or.inl hinactive.2⟩
  · intro rows hrows
    obtain rfl := List.mem_singleton.mp hrows
    exact ⟨some row, ⟨row, rfl, hactive⟩, hchanged⟩

theorem monitor_cases {nodeId : String} (h : f.Tidy) :
    (RelayCall.monitor nodeId).body.wp (fun _ d => d.fleet.Tidy ∧ Idle f d)
      (fun _ d => d.fleet.Tidy ∧ Idle f d) (f.desk e) := by
  unfold RelayCall.body
  rw [Tx.wp_bind]
  apply wp_synchronize
  · exact fun _ _ => ⟨h, rfl, rfl⟩
  · exact fun _ => ⟨h, rfl, rfl⟩
  · exact fun _ => ⟨h.sync e.estate nodeId, rfl, rfl⟩

end Cases

/-! ## Guarantees of a call -/

section Sound

variable {f : Fleet} {route : Route} {call : RelayCall} {returns : Bool} {d : RelayDesk}

theorem Idle.guarantees (h : Idle f d)
    (hcall : ∀ route, call = .delete route → returns = true → False) :
    Guarantees f call returns d where
  acyclic := by
    rw [h.moments]
    intro rows hrows
    cases hrows
  enabled := by
    intro route row hrow henabled
    rw [h.rows] at hrow
    exact Or.inl ⟨row, hrow, henabled⟩
  moved := by
    intro route old row hold hrow hmoved
    rw [h.rows, hold] at hrow
    obtain rfl := Option.some.inj hrow
    exact absurd rfl hmoved
  deleted := by
    intro route row hdelete hreturns
    exact (hcall route hdelete hreturns).elim

/-- The routes other than the one that a call changes stay as they are. -/
theorem Wrote.guarantees {kind : Option RelayRow → Prop} (h : Wrote f route kind d)
    (hacyclic : ∀ rows ∈ d.moments, CycleFree (activeEdges rows))
    (henabled : ∀ row, kind (some row) → row.enabled = true →
      ∃ c c' rest, d.syncs = (route.1, some c) :: (row.exitNode, some c') :: rest ∧
        row.identity ∈ c'.clients ∧ row.identity ∈ c'.exits)
    (hmoved : ∀ old row, f.rows.get? route = some old → kind (some row) →
      (row.exitNode, row.exitInbound) ≠ (old.exitNode, old.exitInbound) →
        route ∉ (f.acked route.1).listeners)
    (hdeleted : ∀ r row, call = .delete r → returns = true → f.rows.get? r = some row →
      ∀ nodeId, row.identity ∉ (d.fleet.acked nodeId).clients) :
    Guarantees f call returns d := by
  obtain ⟨x, hkind, hchanged⟩ := h.moments _ h.last
  exact {
    acyclic := hacyclic
    enabled := by
      intro r row hrow hon
      by_cases hr : r = route
      · subst hr
        obtain rfl := hchanged.at_route.symm.trans hrow
        exact Or.inr (henabled row hkind hon)
      · exact Or.inl ⟨row, (hchanged.others r hr).symm.trans hrow, hon⟩
    moved := by
      intro r old row hold hrow hdiffers
      by_cases hr : r = route
      · subst hr
        obtain rfl := hchanged.at_route.symm.trans hrow
        exact hmoved old row hold hkind hdiffers
      · rw [hchanged.others r hr, hold] at hrow
        obtain rfl := Option.some.inj hrow
        exact absurd rfl hdiffers
    deleted := hdeleted }

/-- Turning a route on closes no cycle. -/
theorem Enables.guarantees {e : RelayEvent} (h : Enables f e route d)
    (hfree : CycleFree (activeEdges f.rows)) :
    Guarantees f (.toggle route true) returns d := by
  rcases h.2 with hidle | ⟨row, c, rest, hrow, hphase, ⟨u, hvalid⟩, hsyncs, hwrote⟩
  · exact hidle.guarantees fun _ hno => by cases hno
  obtain ⟨hreach, hwalk⟩ := validate_ok hvalid
  have hclosed : CycleFree ((route.1, row.exitNode) :: otherEdges f.rows route) :=
    (cycleFree_cons_iff (hfree.mono otherEdges_subset)).mpr hwalk
  apply hwrote.guarantees
  · intro rows hrows
    obtain ⟨x, ⟨phase, -, rfl⟩, hchanged⟩ := hwrote.moments rows hrows
    exact (cycleFree_congr (hchanged.edges rfl)).mpr hclosed
  · rintro row' ⟨phase, -, hrow'⟩ -
    obtain rfl := Option.some.inj hrow'
    exact ⟨c, _, rest, hsyncs, mem_exit hrow hphase hreach⟩
  · rintro old row' hold ⟨phase, -, hrow'⟩ hdiffers
    obtain rfl := Option.some.inj hrow'
    obtain rfl := Option.some.inj (hrow.symm.trans hold)
    exact absurd rfl hdiffers
  · intro r row' hno
    cases hno

/-- A route that is off may be moved. -/
theorem Configures.guarantees {exitNode identity credential : String} {exitInbound : ℕ}
    (h : Configures f route d) (hf : f.Tidy) (hfree : CycleFree (activeEdges f.rows)) :
    Guarantees f (.configure route exitNode exitInbound identity credential) returns d := by
  rcases h.2 with hidle | ⟨hoff, hwrote⟩
  · exact hidle.guarantees fun _ hno => by cases hno
  apply hwrote.guarantees
  · intro rows hrows
    obtain ⟨x, ⟨row, rfl, hactive⟩, hchanged⟩ := hwrote.moments rows hrows
    have hquiet : ∀ row', some row = some row' → row'.active = false := by
      rintro row' hrow'
      obtain rfl := Option.some.inj hrow'
      exact hactive
    exact (cycleFree_congr (hchanged.quiet hquiet)).mpr (hfree.mono otherEdges_subset)
  · rintro row ⟨row', hrow', hactive⟩ henabled
    obtain rfl := Option.some.inj hrow'
    simp [RelayRow.active, henabled] at hactive
  · intro old row hold _ _
    apply hf.quiet route
    intro old' hold'
    obtain rfl := Option.some.inj (hold.symm.trans hold')
    have hinactive := hoff old hold
    simp only [RelayRow.active, Bool.or_eq_false_iff, decide_eq_false_iff_not, ne_eq,
      not_not] at hinactive
    exact ⟨hinactive.1, Or.inl hinactive.2⟩
  · intro r row' hno
    cases hno

/-- The edge of a route that comes to count, added to those that do already. -/
theorem closed_iff {rows : Table Route RelayRow} {row row' : RelayRow}
    (hrow : f.rows.get? route = some row) (hchanged : Changed f.rows rows route (some row'))
    (hactive : row'.active = true) (hexit : row'.exitNode = row.exitNode)
    (hfree : CycleFree (activeEdges f.rows)) :
    CycleFree (activeEdges rows) ↔ ¬ Closes f route := by
  rw [cycleFree_congr (hchanged.edges hactive), hexit]
  by_cases hon : row.active = true
  · -- the route counted before
    have hsame : CycleFree ((route.1, row.exitNode) :: otherEdges f.rows route) := by
      apply hfree.mono
      rintro ⟨a, b⟩ hedge
      rcases List.mem_cons.mp hedge with hself | hother
      · obtain ⟨rfl, rfl⟩ := Prod.mk.inj hself
        exact mem_activeEdges.mpr ⟨route.2, row, hrow, hon, rfl⟩
      · exact otherEdges_subset hother
    refine iff_of_true hsame ?_
    rintro ⟨old, hold, hoff, -⟩
    obtain rfl := Option.some.inj (hrow.symm.trans hold)
    rw [hon] at hoff
    cases hoff
  · rw [Bool.not_eq_true] at hon
    have hothers : ∀ e, e ∈ (route.1, row.exitNode) :: otherEdges f.rows route ↔
        e ∈ (route.1, row.exitNode) :: activeEdges f.rows := by
      rintro ⟨a, b⟩
      rw [List.mem_cons, List.mem_cons]
      refine or_congr_right ⟨fun h => otherEdges_subset h, fun h => ?_⟩
      obtain ⟨inbound, other, hother, hactive', hexit'⟩ := mem_activeEdges.mp h
      refine mem_otherEdges.mpr ⟨inbound, other, hother, hactive', ?_, hexit'⟩
      rintro rfl
      obtain rfl := Option.some.inj (hrow.symm.trans hother)
      rw [hon] at hactive'
      cases hactive'
    rw [cycleFree_congr hothers]
    constructor
    · rintro hclosed ⟨old, hold, -, hcloses⟩
      obtain rfl := Option.some.inj (hrow.symm.trans hold)
      exact hcloses hclosed
    · intro hno
      by_contra hcloses
      exact hno ⟨row, hrow, hon, hcloses⟩

/-- Turning a route off keeps the guarantees exactly if that closes no cycle. -/
theorem Disables.guarantees_iff (h : Disables f route d) (hfree : CycleFree (activeEdges f.rows)) :
    Guarantees f (.toggle route false) returns d ↔ ¬ Closes f route := by
  rcases h.2 with ⟨hidle, hactive⟩ | ⟨row, rest, hrow, hmoments, hwrote⟩
  · refine iff_of_true (hidle.guarantees fun _ hno => by cases hno) ?_
    rintro ⟨row, hrow, hoff, -⟩
    rw [hactive row hrow] at hoff
    cases hoff
  constructor
  · intro hg
    have hfirst := hg.acyclic _ (hmoments ▸ List.mem_cons_self)
    exact (closed_iff hrow (changed_update _ hrow) rfl rfl hfree).mp hfirst
  · intro hno
    apply hwrote.guarantees
    · intro rows hrows
      obtain ⟨x, ⟨phase, hphase, rfl⟩, hchanged⟩ := hwrote.moments rows hrows
      rcases hphase with rfl | rfl
      · exact (closed_iff hrow hchanged rfl rfl hfree).mpr hno
      · have hquiet : ∀ row', some { row with enabled := false, phase := .disabled } = some row' →
            row'.active = false := by
          rintro row' hrow'
          obtain rfl := Option.some.inj hrow'
          rfl
        exact (cycleFree_congr (hchanged.quiet hquiet)).mpr (hfree.mono otherEdges_subset)
    · rintro row' ⟨phase, -, hrow'⟩ henabled
      obtain rfl := Option.some.inj hrow'
      cases henabled
    · rintro old row' hold ⟨phase, -, hrow'⟩ hdiffers
      obtain rfl := Option.some.inj hrow'
      obtain rfl := Option.some.inj (hrow.symm.trans hold)
      exact absurd rfl hdiffers
    · intro r row' hdelete
      cases hdelete

/-- A deletion keeps the guarantees exactly if it closes no cycle, and strands no credential. -/
theorem Deletes.guarantees_iff {e : RelayEvent} (h : Deletes f e route returns d)
    (hfree : CycleFree (activeEdges f.rows)) :
    Guarantees f (.delete route) returns d ↔
      ¬ Closes f route ∧ ¬ Strands f e.outcomes route := by
  rcases h.2 with ⟨hidle, hreturns, hon⟩ |
    ⟨row, rest, hrow, hoff, hphase, hmoments, hwrote, hreturns, hacked⟩
  · refine iff_of_true (hidle.guarantees fun _ _ hno => by rw [hreturns] at hno; cases hno) ⟨?_, ?_⟩
    · rintro ⟨row, hrow, hoff, -⟩
      simp only [RelayRow.active, Bool.or_eq_false_iff, decide_eq_false_iff_not, ne_eq,
        not_not] at hoff
      exact hon row hrow ⟨hoff.1, Or.inl hoff.2⟩
    · rintro ⟨row, nodeId, hrow, hoff, hphase, -⟩
      exact hon row hrow ⟨hoff, hphase⟩
  constructor
  · intro hg
    refine ⟨?_, ?_⟩
    · have hfirst := hg.acyclic _ (hmoments ▸ List.mem_cons_self)
      exact (closed_iff hrow (changed_update _ hrow) rfl rfl hfree).mp hfirst
    · rintro ⟨row', nodeId, hrow', -, -, hhead, hother, hmem⟩
      obtain rfl := Option.some.inj (hrow.symm.trans hrow')
      have htrue : returns = true := hreturns.mpr hhead
      apply hg.deleted route row rfl htrue hrow nodeId
      rw [(hacked htrue).1 nodeId hother]
      exact hmem
  · rintro ⟨hno, hstays⟩
    apply hwrote.guarantees
    · intro rows hrows
      obtain ⟨x, hx, hchanged⟩ := hwrote.moments rows hrows
      rcases hx with rfl | rfl
      · exact (closed_iff hrow hchanged rfl rfl hfree).mpr hno
      · exact (cycleFree_congr (hchanged.quiet fun row' hrow' => by cases hrow')).mpr
          (hfree.mono otherEdges_subset)
    · rintro row' (hrow' | hrow') henabled
      · obtain rfl := Option.some.inj hrow'
        cases henabled
      · cases hrow'
    · rintro old row' hold (hrow' | hrow') hdiffers
      · obtain rfl := Option.some.inj hrow'
        obtain rfl := Option.some.inj (hrow.symm.trans hold)
        exact absurd rfl hdiffers
      · cases hrow'
    · rintro r row' hdelete htrue hrow' nodeId
      obtain rfl := RelayCall.delete.inj hdelete
      obtain rfl := Option.some.inj (hrow.symm.trans hrow')
      by_cases hother : nodeId = row.exitNode
      · subst hother
        exact (hacked htrue).2
      · rw [(hacked htrue).1 nodeId hother]
        intro hmem
        exact hstays ⟨row, nodeId, hrow, hoff, hphase, hreturns.mp htrue, hother, hmem⟩

/-- What a procedure satisfies on both ways to end, it satisfies. -/
theorem of_wp {q : Bool → RelayDesk → Prop} {body : RelayTx Unit} {d : RelayDesk}
    (h : body.wp (fun _ d => q true d) (fun _ d => q false d) d) :
    q (body d).1.isOk (body d).2 := by
  revert h
  unfold Tx.wp
  rcases body d with ⟨_ | u, t⟩
  · exact id
  · exact id

/-- What a call may do. -/
def Does (f : Fleet) (e : RelayEvent) (returns : Bool) (d : RelayDesk) : Prop :=
  match e.call with
  | .configure route _ _ _ _ => Configures f route d
  | .toggle route true => Enables f e route d
  | .toggle route false => Disables f route d
  | .delete route => Deletes f e route returns d
  | .monitor _ => d.fleet.Tidy ∧ Idle f d

theorem perform_does (h : f.Tidy) (e : RelayEvent) :
    Does f e (f.perform e).1.isOk (f.perform e).2 := by
  obtain ⟨call, estate, outcomes⟩ := e
  cases call with
  | configure route exitNode exitInbound identity credential =>
      exact of_wp (configure_cases h)
  | toggle route enabled =>
      cases enabled with
      | true => exact of_wp (enable_cases h)
      | false => exact of_wp (disable_cases h)
  | delete route => exact of_wp (delete_cases h)
  | monitor nodeId => exact of_wp (monitor_cases h)

/-- A call keeps its guarantees exactly if it meets the condition. -/
theorem callSound_iff (h : f.Tidy) (hfree : CycleFree (activeEdges f.rows)) (e : RelayEvent) :
    CallSound f e ↔ RelayOk f e := by
  have hdoes := perform_does h e
  unfold CallSound RelayOk
  revert hdoes
  generalize (f.perform e).1.isOk = returns
  generalize (f.perform e).2 = d
  obtain ⟨call, estate, outcomes⟩ := e
  intro hdoes
  cases call with
  | configure route exitNode exitInbound identity credential =>
      have hcases : Configures f route d := hdoes
      exact iff_of_true (hcases.guarantees h hfree) trivial
  | toggle route enabled =>
      cases enabled with
      | true =>
          have hcases : Enables f _ route d := hdoes
          exact iff_of_true (hcases.guarantees hfree) trivial
      | false =>
          have hcases : Disables f route d := hdoes
          exact hcases.guarantees_iff hfree
  | delete route =>
      have hcases : Deletes f _ route returns d := hdoes
      exact hcases.guarantees_iff hfree
  | monitor nodeId =>
      have hcases : d.fleet.Tidy ∧ Idle f d := hdoes
      exact iff_of_true (hcases.2.guarantees fun _ hno => by cases hno) trivial

/-- What a call leaves is tidy, and its routes are the last ones that it wrote. -/
theorem Does.kept {e : RelayEvent} (h : Does f e returns d) :
    d.fleet.Tidy ∧ (d.fleet.rows = f.rows ∨ d.fleet.rows ∈ d.moments) := by
  obtain ⟨call, estate, outcomes⟩ := e
  cases call with
  | configure route exitNode exitInbound identity credential =>
      obtain ⟨htidy, hidle | ⟨-, hwrote⟩⟩ : Configures f route d := h
      · exact ⟨htidy, Or.inl hidle.rows⟩
      · exact ⟨htidy, Or.inr hwrote.last⟩
  | toggle route enabled =>
      cases enabled with
      | true =>
          obtain ⟨htidy, hidle | ⟨row, c, rest, -, -, -, -, hwrote⟩⟩ : Enables f _ route d := h
          · exact ⟨htidy, Or.inl hidle.rows⟩
          · exact ⟨htidy, Or.inr hwrote.last⟩
      | false =>
          obtain ⟨htidy, ⟨hidle, -⟩ | ⟨row, rest, -, -, hwrote⟩⟩ : Disables f route d := h
          · exact ⟨htidy, Or.inl hidle.rows⟩
          · exact ⟨htidy, Or.inr hwrote.last⟩
  | delete route =>
      obtain ⟨htidy, ⟨hidle, -⟩ | ⟨row, rest, -, -, -, -, hwrote, -⟩⟩ :
        Deletes f _ route returns d := h
      · exact ⟨htidy, Or.inl hidle.rows⟩
      · exact ⟨htidy, Or.inr hwrote.last⟩
  | monitor nodeId =>
      obtain ⟨htidy, hidle⟩ : d.fleet.Tidy ∧ Idle f d := h
      exact ⟨htidy, Or.inl hidle.rows⟩

end Sound

/-! ## Where the credentials are -/

/-- Every credential on a Node belongs to a route that leaves there. -/
def Fleet.AtExits (f : Fleet) : Prop :=
  ∀ nodeId, ∀ identity ∈ (f.acked nodeId).clients,
    ∃ r row, f.rows.get? r = some row ∧ row.identity = identity ∧ row.exitNode = nodeId

/-- The call does not give an existing route another exit. -/
def Unmoved (f : Fleet) (e : RelayEvent) : Prop :=
  ∀ route exitNode exitInbound identity credential,
    e.call = .configure route exitNode exitInbound identity credential →
      ∀ row, f.rows.get? route = some row → row.exitNode = exitNode

section AtExits

variable {f : Fleet} {route : Route}

/-- A Node acknowledges the credentials of the routes that leave there. -/
theorem Fleet.AtExits.sync (h : f.AtExits) (e : Estate) (nodeId : String) :
    Fleet.AtExits
      { f with acked := Function.update f.acked nodeId (relayConfig e f.rows nodeId) } := by
  intro other identity hmem
  by_cases hother : other = nodeId
  · subst hother
    dsimp only at hmem
    rw [Function.update_self] at hmem
    obtain ⟨r, hr, hclient⟩ := List.mem_filterMap.mp hmem
    by_cases hexits : exitsAt e other r.2 = true
    · have hexit : r.2.exitNode = other := by
        simp only [exitsAt, Bool.and_eq_true, decide_eq_true_eq] at hexits
        exact hexits.1.1
      refine ⟨r.1, r.2, Table.get?_eq_some_iff.mpr hr, ?_, hexit⟩
      simp only [hexits, Bool.true_and, Option.ite_none_right_eq_some, Option.some.injEq] at hclient
      exact hclient.2
    · simp [hexits] at hclient
  · dsimp only at hmem
    rw [Function.update_of_ne hother] at hmem
    exact h other identity hmem

/-- A change of one route leaves the credentials at the exits if the route keeps its identity and
its exit, or no Node holds its credential. -/
theorem Fleet.AtExits.change {rows : Table Route RelayRow} {x : Option RelayRow} (h : f.AtExits)
    (hchanged : Changed f.rows rows route x)
    (hkept : ∀ old, f.rows.get? route = some old →
      (∃ row, x = some row ∧ row.identity = old.identity ∧ row.exitNode = old.exitNode) ∨
        ∀ nodeId, old.identity ∉ (f.acked nodeId).clients) :
    Fleet.AtExits { f with rows := rows } := by
  intro nodeId identity hmem
  obtain ⟨r, old, hold, rfl, hexit⟩ := h nodeId identity hmem
  by_cases hr : r = route
  · subst hr
    rcases hkept old hold with ⟨row, rfl, hidentity, hsame⟩ | hnone
    · exact ⟨r, row, hchanged.at_route, hidentity, hsame.trans hexit⟩
    · exact absurd hmem (hnone nodeId)
  · exact ⟨r, old, (hchanged.others r hr).trans hold, rfl, hexit⟩

/-- The credential of a route is nowhere but at its exit. -/
theorem Fleet.AtExits.exit_eq (h : f.AtExits) (htidy : f.Tidy) {row : RelayRow}
    (hrow : f.rows.get? route = some row) {nodeId : String}
    (hmem : row.identity ∈ (f.acked nodeId).clients) : nodeId = row.exitNode := by
  obtain ⟨r, row', hrow', hidentity, hexit⟩ := h nodeId _ hmem
  obtain rfl := htidy.identities r route row' row hrow' hrow hidentity
  rw [← hexit, Option.some.inj (hrow.symm.trans hrow')]

/-- While credentials are at the exits, a deletion strands none. -/
theorem Fleet.AtExits.not_strands (h : f.AtExits) (htidy : f.Tidy) (outcomes : List SyncOutcome) :
    ¬ Strands f outcomes route := by
  rintro ⟨row, nodeId, hrow, -, -, -, hother, hmem⟩
  exact hother (h.exit_eq htidy hrow hmem)

/-- The stores of a call in which the credentials are at the exits. -/
def atExits : Frame RelayDesk where
  inv d := d.fleet.AtExits
  rel _ _ := True
  refl _ := trivial
  trans _ _ _ _ _ := trivial

/-- An exchange leaves the credentials at the exits. -/
theorem synchronize_atExits (nodeId : String) : atExits.Respects (synchronize nodeId) := by
  intro d hd
  apply wp_synchronize
  · exact fun _ _ => ⟨hd, trivial⟩
  · exact fun _ => ⟨⟨hd, trivial⟩, trivial⟩
  · exact fun _ => ⟨⟨hd.sync d.estate nodeId, trivial⟩, trivial⟩

/-- A change of phase leaves the credentials at the exits. -/
theorem writeState_atExits (route : Route) (enabled : Bool) (phase : RelayPhase) :
    atExits.Respects (writeState route enabled phase) := by
  apply Frame.Keeps.write
  intro d hd
  refine ⟨?_, trivial⟩
  cases hrow : d.fleet.rows.get? route with
  | none =>
      have hchanged : Changed d.fleet.rows (d.fleet.rows.update route fun r =>
          { r with enabled := enabled, phase := phase }) route none :=
        ⟨by rw [Table.get?_update, if_pos rfl, hrow]; rfl,
          fun r hr => by rw [Table.get?_update, if_neg hr]⟩
      exact hd.change hchanged fun old hold => by cases hrow.symm.trans hold
  | some row =>
      refine hd.change (changed_update _ hrow) fun old hold => .inl ⟨_, rfl, ?_, ?_⟩
      · rw [Option.some.inj (hrow.symm.trans hold)]
      · rw [Option.some.inj (hrow.symm.trans hold)]

/-- Turning a route on or off leaves the credentials at the exits. -/
theorem toggle_atExits (route : Route) (enabled : Bool) :
    atExits.Respects (RelayCall.toggle route enabled).body := by
  have hrow : atExits.Respects (relayRow route) :=
    Frame.Keeps.look.bind fun _ _ => Frame.Keeps.demand.respects
  cases enabled with
  | true =>
      refine hrow.bind fun row _ => Frame.Keeps.require.bind fun _ _ =>
        Frame.Keeps.require.bind fun _ _ => ?_
      refine (Frame.Keeps.look.bind fun _ _ => Frame.Keeps.check).bind fun _ _ => ?_
      refine (synchronize_atExits _).bind fun _ _ => Frame.Keeps.require.bind fun _ _ => ?_
      refine (synchronize_atExits _).bind fun _ _ => Frame.Keeps.require.bind fun _ _ => ?_
      refine (writeState_atExits _ _ _).bind fun _ _ => (synchronize_atExits _).bind fun _ _ => ?_
      exact Frame.Keeps.require.bind fun _ _ => writeState_atExits _ _ _
  | false =>
      refine hrow.bind fun row _ => Frame.Keeps.require.bind fun _ _ => ?_
      refine (writeState_atExits _ _ _).bind fun _ _ => (synchronize_atExits _).bind fun _ _ => ?_
      exact Frame.Keeps.require.bind fun _ _ => writeState_atExits _ _ _

/-- Configuring a route without moving it leaves the credentials at the exits. -/
theorem configure_atExits {e : RelayEvent} (h : f.AtExits) {exitNode identity credential : String}
    {exitInbound : ℕ} (hstays : ∀ row, f.rows.get? route = some row → row.exitNode = exitNode) :
    (configureRelay route exitNode exitInbound identity credential).wp
      (fun _ d => d.fleet.AtExits) (fun _ d => d.fleet.AtExits) (f.desk e) := by
  unfold configureRelay checkRelay
  simp only [Tx.wp_bind, Tx.wp_read, Tx.wp_require, Tx.wp_ofExcept]
  refine ⟨fun _ => ⟨fun _ _ => ⟨fun _ => ?_, fun _ => h⟩, fun _ _ => h⟩, fun _ => h⟩
  refine h.change (changed_upsert _ _ _ _) fun old hold => .inl ⟨_, rfl, ?_, ?_⟩
  · rw [hold]
    rfl
  · rw [hold]
    exact (hstays old hold).symm

/-- A deletion leaves the credentials at the exits: the row goes when its exit has acknowledged a
state without the credential, and no other Node held it. -/
theorem delete_atExits {e : RelayEvent} (h : f.AtExits) (htidy : f.Tidy) :
    (deleteRelay route).wp (fun _ d => d.fleet.AtExits) (fun _ d => d.fleet.AtExits)
      (f.desk e) := by
  unfold deleteRelay relayRow
  simp only [Tx.wp_bind, Tx.wp_read, Tx.wp_demand, Tx.wp_require]
  refine ⟨fun row hrow => ⟨fun hoff => ?_, fun _ => h⟩, fun _ => h⟩
  unfold writeState writeRows
  simp only [Tx.wp_write]
  have hfirst := changed_update (fun r => { r with enabled := false, phase := .deleting }) hrow
  have h₁ := h.change hfirst fun old hold => .inl ⟨_, rfl, by
    rw [Option.some.inj (hrow.symm.trans hold)], by rw [Option.some.inj (hrow.symm.trans hold)]⟩
  have htidy₁ : Fleet.Tidy { f with rows := f.rows.update route fun r =>
      { r with enabled := false, phase := .deleting } } :=
    htidy.state route false .deleting fun _ _ => htidy.quiet route fun old hold => by
      rw [← Option.some.inj (hrow.symm.trans hold)]
      exact hoff
  apply wp_synchronize
  · exact fun _ _ => h₁
  · exact fun _ => ⟨fun hno => (by cases hno), fun _ => h₁⟩
  intro _
  have h₂ := h₁.sync e.estate row.exitNode
  refine ⟨fun _ => h₂.change changed_erase fun old hold => .inr fun nodeId hmem => ?_,
    fun hno => absurd rfl hno⟩
  obtain rfl := Option.some.inj (hfirst.at_route.symm.trans hold)
  have hexit : nodeId = row.exitNode := h₂.exit_eq (htidy₁.sync e.estate row.exitNode)
    hfirst.at_route hmem
  subst hexit
  dsimp only at hmem
  rw [Function.update_self] at hmem
  obtain ⟨r, row', hrow', hphase, hidentity⟩ := exists_of_mem_clients hmem
  obtain rfl := htidy₁.identities r route row' _ hrow' hfirst.at_route hidentity
  obtain rfl := Option.some.inj (hfirst.at_route.symm.trans hrow')
  exact hphase rfl

/-- A call that moves no route leaves the credentials at the exits. -/
theorem Fleet.AtExits.after (h : f.AtExits) (htidy : f.Tidy) {e : RelayEvent} (hstays : Unmoved f e) :
    (f.perform e).2.fleet.AtExits := by
  obtain ⟨call, estate, outcomes⟩ := e
  cases call with
  | configure route exitNode exitInbound identity credential =>
      exact of_wp (q := fun _ d => d.fleet.AtExits)
        (configure_atExits h (hstays route exitNode exitInbound identity credential rfl))
  | toggle route enabled =>
      have hstart : atExits.inv (f.desk ⟨.toggle route enabled, estate, outcomes⟩) := h
      exact ((toggle_atExits route enabled).later hstart).1
  | delete route => exact of_wp (q := fun _ d => d.fleet.AtExits) (delete_atExits h htidy)
  | monitor nodeId =>
      have hkeeps : atExits.Respects (RelayCall.monitor nodeId).body :=
        (synchronize_atExits nodeId).bind fun _ _ => Frame.Keeps.pure trivial
      have hstart : atExits.inv (f.desk ⟨.monitor nodeId, estate, outcomes⟩) := h
      exact (hkeeps.later hstart).1

end AtExits

/-! ## Runs -/

/-- One call. -/
def Fleet.after (f : Fleet) (e : RelayEvent) : Fleet :=
  (f.perform e).2.fleet

/-- No routes, and no Node has acknowledged any. -/
def Fleet.empty : Fleet :=
  ⟨Table.empty, fun _ => ⟨[], [], []⟩⟩

theorem Fleet.tidy_empty : Fleet.empty.Tidy where
  identities := by
    intro a b row row' hrow
    cases hrow
  quiet := fun route _ => List.not_mem_nil

/-- What holds between the calls of a run. -/
theorem sound_run {es : List RelayEvent} {f : Fleet}
    (hrun : Run (Guarded (fun f e f' => f.after e = f') RelayOk) Fleet.empty es f) :
    f.Tidy ∧ CycleFree (activeEdges f.rows) := by
  induction hrun with
  | nil => exact ⟨Fleet.tidy_empty, cycleFree_nil⟩
  | snoc _ hlast ih =>
      obtain ⟨htidy, hfree⟩ := ih
      obtain ⟨rfl, hok⟩ := hlast
      have hsound := (callSound_iff htidy hfree _).mpr hok
      obtain ⟨htidy', hrows⟩ := (perform_does htidy _).kept
      refine ⟨htidy', ?_⟩
      rcases hrows with hsame | hwritten
      · exact hsame ▸ hfree
      · exact hsound.acyclic _ hwritten

/-- The routes form no cycle and a call keeps its guarantees exactly if it meets the condition,
after every run of calls that meet it. -/
theorem relays_sound {es : List RelayEvent} {f : Fleet}
    (hrun : Run (Guarded (fun f e f' => f.after e = f') RelayOk) Fleet.empty es f) :
    CycleFree (activeEdges f.rows) ∧ ∀ e, CallSound f e ↔ RelayOk f e := by
  obtain ⟨htidy, hfree⟩ := sound_run hrun
  exact ⟨hfree, callSound_iff htidy hfree⟩

/-- As long as no route is moved, every Node that holds the credential of a route is its exit, and
deletions strand none.  So a Node other than the exit holds it only after the route was moved. -/
theorem unmoved_at_exits {es : List RelayEvent} {f : Fleet}
    (hrun : Run (Guarded (fun f e f' => f.after e = f') Unmoved) Fleet.empty es f) :
    f.AtExits ∧ ∀ route outcomes, ¬ Strands f outcomes route := by
  have hinv : f.AtExits ∧ f.Tidy := by
    have hempty : Fleet.empty.AtExits := fun nodeId identity hmem => by cases hmem
    have hstep : ∀ (a : Fleet) (e : RelayEvent) (b : Fleet), a.AtExits ∧ a.Tidy →
        Guarded (fun f e f' => f.after e = f') Unmoved a e b → b.AtExits ∧ b.Tidy := by
      rintro a e b ⟨hexits, htidy⟩ ⟨rfl, hstays⟩
      exact ⟨hexits.after htidy hstays, (perform_does htidy e).kept.1⟩
    exact hrun.invariant ⟨hempty, Fleet.tidy_empty⟩ hstep
  exact ⟨hinv.1, fun _ outcomes => hinv.1.not_strands hinv.2 outcomes⟩

/-! ## Three Nodes -/

/-- Three Nodes with one Reality inbound each. -/
def threeNodes : Estate where
  nodes := fun n =>
    if n = "A" then some ⟨true, [1], "a.example", false⟩
    else if n = "B" then some ⟨true, [2], "b.example", false⟩
    else if n = "C" then some ⟨true, [3], "c.example", false⟩
    else none
  inbounds := fun i =>
    if i ∈ [1, 2, 3] then
      some ⟨true, "vless", "tcp", "reality", "none", "", "none", some ⟨"key", "sni", "id"⟩⟩
    else none

/-- A call on the three Nodes whose exchanges are all acknowledged. -/
def calm (call : RelayCall) : RelayEvent :=
  ⟨call, threeNodes, [.acknowledged, .acknowledged, .acknowledged]⟩

/-- A route from A to B that is enabled. -/
def oneRoute : Fleet :=
  (Fleet.empty.after (calm (.configure ("A", 1) "B" 2 "r" "k"))).after
    (calm (.toggle ("A", 1) true))

theorem relays_sound_enabled :
    CycleFree (activeEdges oneRoute.rows) ∧ ∀ e, CallSound oneRoute e ↔ RelayOk oneRoute e :=
  relays_sound ((Run.nil.snoc ⟨rfl, trivial⟩).snoc ⟨rfl, trivial⟩)

/-- The route has been turned off and moved to C. -/
def movedRoute : Fleet :=
  (oneRoute.after (calm (.toggle ("A", 1) false))).after
    (calm (.configure ("A", 1) "C" 3 "s" "l"))

/-- A route that is moved leaves its credential on the old exit when it is deleted. -/
theorem moved_route_strands :
    ∃ es f e, Run (fun f e f' => f.after e = f') Fleet.empty es f ∧ ¬ CallSound f e := by
  refine ⟨[_, _, _, _], movedRoute, calm (.delete ("A", 1)),
    (((Run.nil.snoc rfl).snoc rfl).snoc rfl).snoc rfl, fun hsound => ?_⟩
  have hgone := hsound.deleted ("A", 1) ⟨"C", 3, "r", "k", false, .disabled⟩ rfl
    (by decide +kernel) (by decide +kernel) "B"
  have hkept : "r" ∈ ((movedRoute.perform (calm (.delete ("A", 1)))).2.fleet.acked "B").clients := by
    decide +kernel
  exact hgone hkept

/-- A route from A to B that is off, and one from B to A that is enabled. -/
def backRoute : Fleet :=
  ((Fleet.empty.after (calm (.configure ("A", 1) "B" 2 "r" "k"))).after
    (calm (.configure ("B", 2) "A" 1 "s" "l"))).after (calm (.toggle ("B", 2) true))

/-- A route that is off counts for a cycle while it is being deleted. -/
theorem deletion_closes_cycle :
    ∃ es f e, Run (fun f e f' => f.after e = f') Fleet.empty es f ∧
      ∃ rows ∈ (f.perform e).2.moments, ¬ CycleFree (activeEdges rows) := by
  refine ⟨[_, _, _], backRoute, ⟨.delete ("A", 1), threeNodes, [.unacknowledged]⟩,
    ((Run.nil.snoc rfl).snoc rfl).snoc rfl,
    (backRoute.perform ⟨.delete ("A", 1), threeNodes, [.unacknowledged]⟩).2.fleet.rows, ?_, ?_⟩
  · exact List.mem_singleton_self _
  · have hedges : activeEdges (backRoute.perform
        ⟨.delete ("A", 1), threeNodes, [.unacknowledged]⟩).2.fleet.rows = [("A", "B"), ("B", "A")] := by
      decide +kernel
    rw [hedges]
    intro hfree
    have hthere : Edge [("A", "B"), ("B", "A")] "A" "B" := List.mem_cons_self
    have hback : Edge [("A", "B"), ("B", "A")] "B" "A" := List.mem_cons_of_mem _ List.mem_cons_self
    exact hfree "A" ((Relation.TransGen.single hthere).tail hback)

end Nodes
end DarkXray
