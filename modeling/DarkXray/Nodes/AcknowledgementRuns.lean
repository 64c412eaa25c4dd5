import DarkXray.Library.Runs
import DarkXray.Nodes.Acknowledgements

/-!
# Runs of the synchronisation of a Node

Calls that set and read the desired state, changes of the assignments, synchronisations and
the answers to their requests, in any order.  A request is in flight until it is answered;
an answer may come at any later time, and it may be an error.

Main results:

- Theorem {lit}`after_does`: a step acknowledges only what the Agent has answered.
- Theorem {lit}`acknowledgements_true`: the same for every step of every run, and what is read
  has the hash that comes with it.
-/

namespace DarkXray
namespace Nodes

open Library Policy

/-! ## Steps -/

/-- The stages of a synchronisation: the configuration is applied, or an older Node mirrors
the inbounds and the Hub notes that afterwards. -/
inductive SyncPhase where
  | applying
  | mirroring
  | noting
deriving DecidableEq

/-- A synchronisation that is under way, with the bundles for an older Node. -/
structure Flight where
  state : DesiredState
  legacy : Option (List ℤ)
  phase : SyncPhase

/-- The registry, the desired states that were handed out, and the requests in flight. -/
structure Registration where
  registry : Registry
  issued : List DesiredState
  flights : List Flight

/-- The text of a {lit}`PolicyError` of the transport; none of them is empty. -/
abbrev TransportError : Type :=
  { message : String // message ≠ "" }

/-- The pending control lets a synchronisation go on, defers it, or raises. -/
inductive ControlGate where
  | passed
  | deferred
  | raised
deriving DecidableEq

/-- One step.  A configuration is a document in which no object has two fields of the same
name, and whose files come with their contents in the clear. -/
inductive SyncEvent where
  | set (now nonce : ℕ) (value : { d : Doc Scalar // Plain d })
  | read (now nonce : ℕ)
  | assign (now : ℕ) (source : ℤ) (assigned : Bool)
  | put (now : ℕ) (sources : List ℤ)
  | surroundings (persisted : Bool) (generated : List ℤ)
  | send (now nonce : ℕ) (pick : ℕ) (legacy : Option (List ℤ)) (gate : ControlGate)
  | answer (now : ℕ) (flight : ℕ) (reply : Except TransportError (Doc Scalar))
  | mirrored (now : ℕ) (flight : ℕ) (reply : Except TransportError (Doc Scalar))
  | noted (now : ℕ) (flight : ℕ)

/-- The request in flight that a step answers. -/
def SyncEvent.answers? : SyncEvent → Option ℕ
  | answer _ i _ => some i
  | mirrored _ i _ => some i
  | noted _ i => some i
  | _ => none

/-- The Hub falls back to mirrors for an answer. -/
def fallsBack (f : Flight) (message : String) : Except Failure Bool :=
  (relayRequired f.state.payload).map fun required =>
    f.legacy.isSome && !required && hasPrefix "Node HTTP 404" message

/-- What the Hub notes about an older Node. -/
def legacyNote : String :=
  "legacy node: inbound/client mirror only; upgrade to agent-only runtime"

/-- {lit}`sync_desired_state` up to its request, for a state that was handed out before. -/
def Registration.send (hub : HubSide) (now nonce : ℕ) (state : DesiredState)
    (legacy : Option (List ℤ)) (w : Registration) : Registration :=
  match desiredState hub now nonce w.registry with
  | (.ok current, r) =>
      if state.revision = current.revision ∧ state.hash = current.hash then
        { w with registry := r, flights := w.flights ++ [⟨state, legacy, .applying⟩] }
      else { w with registry := r }
  | (.error _, r) => { w with registry := r }

/-- The answer to a request that has the configuration applied. -/
def Registration.answer (now : ℕ) (i : ℕ) (f : Flight)
    (reply : Except TransportError (Doc Scalar)) (w : Registration) : Registration :=
  match reply with
  | .ok doc =>
      { w with registry := (settle now f.state doc w.registry).2, flights := w.flights.eraseIdx i }
  | .error message =>
      match fallsBack f message.1 with
      | .ok true =>
          if (f.legacy.getD []).length ≤ 256 then
            { w with flights := w.flights.set i { f with phase := .mirroring } }
          else { w with flights := w.flights.eraseIdx i }
      | .ok false =>
          { w with
            registry := (markDesiredState now f.state.revision f.state.hash message.1 w.registry).2
            flights := w.flights.eraseIdx i }
      | .error _ => { w with flights := w.flights.eraseIdx i }

/-- The answer to a request that has the inbounds mirrored. -/
def Registration.mirrored (hub : HubSide) (now : ℕ) (i : ℕ) (f : Flight)
    (reply : Except TransportError (Doc Scalar)) (w : Registration) : Registration :=
  match reply with
  | .ok doc =>
      match recordMirrors hub now (f.legacy.getD []) doc w.registry with
      | (.ok _, r) =>
          { w with registry := r, flights := w.flights.set i { f with phase := .noting } }
      | (.error _, r) => { w with registry := r, flights := w.flights.eraseIdx i }
  | .error _ => { w with flights := w.flights.eraseIdx i }

/-- The request in flight at a place, in a phase. -/
def Registration.flight? (w : Registration) (i : ℕ) (phase : SyncPhase) : Option Flight :=
  (w.flights[i]?).filter fun f => f.phase = phase

/-- A step. -/
def Registration.after (hub : HubSide) (w : Registration) : SyncEvent → Registration
  | .set now nonce value =>
      { w with registry := (setDesiredState hub now nonce value.1 w.registry).2 }
  | .read now nonce =>
      match desiredState hub now nonce w.registry with
      | (.ok state, r) => { w with registry := r, issued := state :: w.issued }
      | (.error _, r) => { w with registry := r }
  | .assign now source assigned =>
      { w with registry := (setInboundAssignment now source assigned w.registry).2 }
  | .put now sources => { w with registry := (putAssignments now sources w.registry).2 }
  | .surroundings persisted generated =>
      { w with registry := { w.registry with persisted := persisted, generated := generated } }
  | .send now nonce pick legacy gate =>
      match gate, w.issued[pick]? with
      | .passed, some state => w.send hub now nonce state legacy
      | _, _ => w
  | .answer now i reply => (w.flight? i .applying).elim w fun f => w.answer now i f reply
  | .mirrored now i reply => (w.flight? i .mirroring).elim w fun f => w.mirrored hub now i f reply
  | .noted now i => (w.flight? i .noting).elim w fun f =>
      { w with
        registry := (markDesiredState now f.state.revision f.state.hash legacyNote w.registry).2
        flights := w.flights.eraseIdx i }

/-- A Node without a desired state. -/
def Registration.opening : Registration :=
  ⟨⟨none, Table.empty, false, [], .atom .null⟩, [], []⟩

/-! ## What a step may do -/

/-- The mirrors of an older Node are recorded while the desired state that it refused is
current, and a desired state is read after one was set. -/
def SyncOk (w : Registration) : SyncEvent → Prop
  | .read _ _ => w.registry.desired ≠ none
  | .mirrored _ i (.ok _) => ∀ f, w.flight? i .mirroring = some f → w.registry.Current f.state
  | _ => True

/-- A step tells the truth about what the Agent has acknowledged. -/
structure Truthful (w : Registration) (e : SyncEvent) (w' : Registration) : Prop where
  advances : Advances w.registry w'.registry
  applied : w'.registry.applied = w.registry.applied ∨
    ∃ now i f doc, e = .answer now i (.ok doc) ∧ w.flight? i .applying = some f ∧
      Acknowledged w.registry f.state doc w'.registry
  answered : ∀ now i reply, e = .answer now i reply →
    (w'.registry.applied = w.registry.applied ∧
        w'.registry.assignments = w.registry.assignments) ∨
      ∃ f doc, reply = .ok doc ∧ w.flight? i .applying = some f ∧
        Acknowledged w.registry f.state doc w'.registry
  stale : ∀ i f, e.answers? = some i → w.flights[i]? = some f → ¬ w.registry.Current f.state →
    w'.registry.applied = w.registry.applied ∧ w'.registry.assignments = w.registry.assignments

/-- A step that changes at most the desired state and its error is truthful. -/
theorem truthful_of_redesired {w w' : Registration} {e : SyncEvent}
    (h : Redesired w.registry w'.registry) : Truthful w e w' where
  advances := h.advances
  applied := .inl h.applied
  answered := fun _ _ _ _ => .inl ⟨h.applied, h.assignments⟩
  stale := fun _ _ _ _ _ => ⟨h.applied, h.assignments⟩

/-- So is a step that answers nothing and changes the assignments. -/
theorem truthful_of_desired {w w' : Registration} {e : SyncEvent} (he : e.answers? = none)
    (h : w'.registry.desired = w.registry.desired) : Truthful w e w' where
  advances := .inl ⟨by rw [Registry.revision, h, Registry.revision],
    by rw [Registry.hash?, h, Registry.hash?]⟩
  applied := .inl (by rw [Registry.applied, h, Registry.applied])
  answered := by
    rintro now i reply rfl
    cases he
  stale := by
    intro i f hi
    rw [he] at hi
    cases hi

/-- An assignment leaves the desired state. -/
theorem desired_setInboundAssignment (now : ℕ) (source : ℤ) (assigned : Bool) (r : Registry) :
    (setInboundAssignment now source assigned r).2.desired = r.desired := by
  unfold setInboundAssignment
  rw [Tx.bind_apply]
  unfold Tx.require
  by_cases h : 1 ≤ source
  · rw [if_pos h]
    rfl
  · rw [if_neg h]
    rfl

/-- Assignments leave the desired state. -/
theorem desired_putAssignments (now : ℕ) (sources : List ℤ) (r : Registry) :
    (putAssignments now sources r).2.desired = r.desired := by
  unfold putAssignments
  rw [Tx.bind_apply]
  unfold Tx.require
  by_cases h : sources.length ≤ 256 ∧ ∀ source ∈ sources, 1 ≤ source
  · rw [if_pos h]
    rfl
  · rw [if_neg h]
    rfl

/-- Recording mirrors writes assignments only. -/
theorem desired_recordMirrors (hub : HubSide) (now : ℕ) (bundles : List ℤ) (doc : Doc Scalar)
    (r : Registry) : (recordMirrors hub now bundles doc r).2.desired = r.desired := by
  unfold recordMirrors
  rw [Tx.bind_apply]
  cases hitems : need ((doc.get? "items").bind Doc.list?) "Invalid node mirror sync response" with
  | error e => rfl
  | ok items =>
      simp only [Tx.ofExcept, Tx.transaction, Tx.bind_apply, Tx.read]
      cases mirrorRows hub now items bundles r.assignments with
      | error e => rfl
      | ok t => rfl

/-- A registry is faithful as long as the desired state stays. -/
theorem faithful_of_desired {hub : HubSide} {r r' : Registry} (hf : Faithful hub r)
    (h : r'.desired = r.desired) : Faithful hub r' := by
  intro row hrow
  exact hf row (h ▸ hrow)

/-- What a step adds to the desired states that were handed out. -/
def Issues (hub : HubSide) (w w' : Registration) : Prop :=
  w'.issued = w.issued ∨
    ∃ state, w'.issued = state :: w.issued ∧ w'.registry.Current state ∧ Honest hub state

/-- The effect of a step. -/
structure StepDoes (hub : HubSide) (w : Registration) (e : SyncEvent) (w' : Registration) :
    Prop where
  faithful : Faithful hub w'.registry
  truthful : Truthful w e w'
  issues : Issues hub w w'

/-- What sending a state does. -/
theorem send_does {hub : HubSide} {now nonce pick : ℕ} {legacy : Option (List ℤ)}
    {gate : ControlGate} {w : Registration} (hf : Faithful hub w.registry) (state : DesiredState) :
    StepDoes hub w (.send now nonce pick legacy gate) (w.send hub now nonce state legacy) := by
  have hread := desiredState_does now nonce hf
  unfold Registration.send
  rcases hresult : desiredState hub now nonce w.registry with ⟨e | current, r⟩
  · rw [hresult] at hread
    exact ⟨hread.faithful, truthful_of_redesired hread.redesired, .inl rfl⟩
  · rw [hresult] at hread
    dsimp only
    split
    · exact ⟨hread.faithful, truthful_of_redesired hread.redesired, .inl rfl⟩
    · exact ⟨hread.faithful, truthful_of_redesired hread.redesired, .inl rfl⟩

/-- What an acknowledgement does. -/
theorem mark_does {hub : HubSide} {now revision : ℕ} {digest message : String} {w w' : Registration}
    {e : SyncEvent} (hmessage : message ≠ "") (hf : Faithful hub w.registry)
    (hregistry : w'.registry = (markDesiredState now revision digest message w.registry).2)
    (hissued : w'.issued = w.issued) : StepDoes hub w e w' := by
  obtain ⟨hredesired, hfaithful⟩ := markDesiredState_does now revision digest hmessage hf
  rw [← hregistry] at hredesired hfaithful
  exact ⟨hfaithful, truthful_of_redesired hredesired, .inl hissued⟩

/-- A step that leaves the registry and what was handed out. -/
theorem idle_does {hub : HubSide} {w w' : Registration} {e : SyncEvent}
    (hf : Faithful hub w.registry) (hregistry : w'.registry = w.registry)
    (hissued : w'.issued = w.issued) : StepDoes hub w e w' := by
  have hredesired : Redesired w.registry w'.registry := hregistry ▸ Redesired.refl w.registry
  exact ⟨hregistry ▸ hf, truthful_of_redesired hredesired, .inl hissued⟩

/-- What an answer does. -/
theorem answer_does {hub : HubSide} {now i : ℕ} {f : Flight} {reply : Except TransportError (Doc Scalar)}
    {w : Registration} (hf : Faithful hub w.registry) (hflight : w.flight? i .applying = some f) :
    StepDoes hub w (.answer now i reply) (w.answer now i f reply) := by
  cases reply with
  | ok doc =>
      obtain ⟨hfaithful, hsettled⟩ := settle_does now f.state doc hf
      rcases hsettled with hredesired | ⟨hacknowledged, hadvances⟩
      · exact ⟨hfaithful, truthful_of_redesired hredesired, .inl rfl⟩
      · have hplace := (Option.filter_eq_some_iff.mp hflight).1
        refine ⟨hfaithful, ⟨hadvances, .inr ⟨now, i, f, doc, rfl, hflight, hacknowledged⟩, ?_, ?_⟩,
          .inl rfl⟩
        · rintro _ _ _ ⟨⟩
          exact .inr ⟨f, doc, rfl, hflight, hacknowledged⟩
        · rintro _ f' ⟨⟩ hf' hstale
          obtain rfl : f = f' := by simpa [hplace] using hf'
          exact absurd hacknowledged.current hstale
  | error message =>
      unfold Registration.answer
      dsimp only
      cases fallsBack f message.1 with
      | error e => exact idle_does hf rfl rfl
      | ok back =>
          cases back with
          | false => exact mark_does message.2 hf rfl rfl
          | true =>
              dsimp only
              split
              · exact idle_does hf rfl rfl
              · exact idle_does hf rfl rfl

/-- What a mirrored answer does. -/
theorem mirrored_does {hub : HubSide} {now i : ℕ} {f : Flight} {reply : Except TransportError (Doc Scalar)}
    {w : Registration} (hf : Faithful hub w.registry) (hflight : w.flight? i .mirroring = some f)
    (hok : SyncOk w (.mirrored now i reply)) :
    StepDoes hub w (.mirrored now i reply) (w.mirrored hub now i f reply) := by
  cases reply with
  | error message => exact idle_does hf rfl rfl
  | ok doc =>
      have hdesired := desired_recordMirrors hub now (f.legacy.getD []) doc w.registry
      have hplace := (Option.filter_eq_some_iff.mp hflight).1
      have hsame : ∀ w' : Registration, w'.registry =
          (recordMirrors hub now (f.legacy.getD []) doc w.registry).2 → w'.issued = w.issued →
          StepDoes hub w (.mirrored now i (.ok doc)) w' := by
        intro w' hregistry hissued
        rw [← hregistry] at hdesired
        refine ⟨faithful_of_desired hf hdesired, ⟨.inl ⟨?_, ?_⟩, .inl ?_, ?_, ?_⟩, .inl hissued⟩
        · rw [Registry.revision, hdesired, Registry.revision]
        · rw [Registry.hash?, hdesired, Registry.hash?]
        · rw [Registry.applied, hdesired, Registry.applied]
        · rintro _ _ _ ⟨⟩
        · rintro _ f' ⟨⟩ hf' hstale
          obtain rfl : f = f' := by simpa [hplace] using hf'
          exact absurd (hok f hflight) hstale
      unfold Registration.mirrored
      dsimp only
      rcases hresult : recordMirrors hub now (f.legacy.getD []) doc w.registry with ⟨e | u, r⟩
      · exact hsame _ (by rw [hresult]) rfl
      · exact hsame _ (by rw [hresult]) rfl

/-- A step acknowledges only what the Agent has answered. -/
theorem after_does {hub : HubSide} {w : Registration} (hf : Faithful hub w.registry) (e : SyncEvent)
    (hok : SyncOk w e) : StepDoes hub w e (w.after hub e) := by
  cases e with
  | set now nonce value =>
      obtain ⟨hredesired, hfaithful⟩ :=
        setDesiredState_does now nonce hf value.2
      exact ⟨hfaithful, truthful_of_redesired hredesired, .inl rfl⟩
  | read now nonce =>
      have hread := desiredState_does now nonce hf
      rcases hresult : desiredState hub now nonce w.registry with ⟨e | state, r⟩
      · rw [hresult] at hread
        simp only [Registration.after, hresult]
        exact ⟨hread.faithful, truthful_of_redesired hread.redesired, .inl rfl⟩
      · rw [hresult] at hread
        simp only [Registration.after, hresult]
        obtain ⟨hcurrent, hhonest⟩ := hread.honest state hok rfl
        exact ⟨hread.faithful, truthful_of_redesired hread.redesired,
          .inr ⟨state, rfl, hcurrent, hhonest⟩⟩
  | assign now source assigned =>
      have hdesired := desired_setInboundAssignment now source assigned w.registry
      exact ⟨faithful_of_desired hf hdesired, truthful_of_desired rfl hdesired, .inl rfl⟩
  | put now sources =>
      have hdesired := desired_putAssignments now sources w.registry
      exact ⟨faithful_of_desired hf hdesired, truthful_of_desired rfl hdesired, .inl rfl⟩
  | surroundings persisted generated =>
      exact ⟨faithful_of_desired hf rfl, truthful_of_desired rfl rfl, .inl rfl⟩
  | send now nonce pick legacy gate =>
      cases gate with
      | passed =>
          cases hpick : w.issued[pick]? with
          | none =>
              simp only [Registration.after, hpick]
              exact idle_does hf rfl rfl
          | some state =>
              simp only [Registration.after, hpick]
              exact send_does hf state
      | deferred => exact idle_does hf rfl rfl
      | raised => exact idle_does hf rfl rfl
  | answer now i reply =>
      simp only [Registration.after]
      cases hflight : w.flight? i .applying with
      | none => exact idle_does hf rfl rfl
      | some f => exact answer_does hf hflight
  | mirrored now i reply =>
      simp only [Registration.after]
      cases hflight : w.flight? i .mirroring with
      | none => exact idle_does hf rfl rfl
      | some f => exact mirrored_does hf hflight hok
  | noted now i =>
      simp only [Registration.after]
      cases hflight : w.flight? i .noting with
      | none => exact idle_does hf rfl rfl
      | some f => exact mark_does (by decide) hf rfl rfl

/-! ## Runs -/

/-- Revisions that were handed out belong to one hash each. -/
structure Ordered (w : Registration) : Prop where
  bounded : ∀ a ∈ w.issued, a.revision ≤ w.registry.revision
  latest : ∀ a ∈ w.issued, a.revision = w.registry.revision → w.registry.hash? = some a.hash
  unique : ∀ a ∈ w.issued, ∀ b ∈ w.issued, a.revision = b.revision → a.hash = b.hash

/-- A current state has the revision of the registry. -/
theorem Registry.Current.revision {r : Registry} {state : DesiredState} (h : r.Current state) :
    state.revision = r.revision := by
  obtain ⟨row, hrow, hrevision, -⟩ := h
  rw [hrevision, Registry.revision, hrow]
  rfl

/-- A current state has the hash of the registry. -/
theorem Registry.Current.hash? {r : Registry} {state : DesiredState} (h : r.Current state) :
    r.hash? = some state.hash := by
  obtain ⟨row, hrow, -, hhash⟩ := h
  rw [hhash, Registry.hash?, hrow]
  rfl

/-- An advance keeps the order of what was handed out before. -/
theorem Ordered.advance {w w' : Registration} (h : Ordered w)
    (hadvances : Advances w.registry w'.registry) (hissued : w'.issued = w.issued) : Ordered w' := by
  refine ⟨fun a ha => ?_, fun a ha hrevision => ?_, ?_⟩
  · have hbound := h.bounded a (hissued ▸ ha)
    rcases hadvances with ⟨hsame, -⟩ | ⟨hlater, -⟩
    · omega
    · omega
  · have hbound := h.bounded a (hissued ▸ ha)
    rcases hadvances with ⟨hsame, hhash⟩ | ⟨hlater, -⟩
    · rw [hhash]
      exact h.latest a (hissued ▸ ha) (by omega)
    · omega
  · rw [hissued]
    exact h.unique

/-- So does handing out the current desired state. -/
theorem Ordered.issue {w w' : Registration} {state : DesiredState} (h : Ordered w)
    (hregistry : w'.registry = w.registry) (hissued : w'.issued = state :: w.issued)
    (hcurrent : w.registry.Current state) : Ordered w' := by
  have hlatest : ∀ a ∈ w'.issued, a.revision = w.registry.revision →
      w.registry.hash? = some a.hash := by
    intro a ha hrevision
    rcases List.mem_cons.mp (hissued ▸ ha) with rfl | ha
    · exact hcurrent.hash?
    · exact h.latest a ha hrevision
  have hsame : ∀ a ∈ w.issued, a.revision = state.revision → a.hash = state.hash := by
    intro a ha hrevision
    have hhash := h.latest a ha (hrevision.trans hcurrent.revision)
    rw [hcurrent.hash?] at hhash
    exact (Option.some.inj hhash).symm
  refine ⟨fun a ha => ?_, fun a ha hrevision => ?_, fun a ha b hb hrevision => ?_⟩
  · rw [hregistry]
    rcases List.mem_cons.mp (hissued ▸ ha) with rfl | ha
    · exact hcurrent.revision.le
    · exact h.bounded a ha
  · rw [hregistry] at hrevision ⊢
    exact hlatest a ha hrevision
  · rcases List.mem_cons.mp (hissued ▸ ha) with rfl | ha
    · rcases List.mem_cons.mp (hissued ▸ hb) with rfl | hb
      · rfl
      · exact (hsame b hb hrevision.symm).symm
    · rcases List.mem_cons.mp (hissued ▸ hb) with rfl | hb
      · exact hsame a ha hrevision
      · exact h.unique a ha b hb hrevision

/-- What holds in every state of a run. -/
structure Sound (hub : HubSide) (w : Registration) : Prop where
  faithful : Faithful hub w.registry
  honest : ∀ a ∈ w.issued, Honest hub a
  ordered : Ordered w

/-- A step that meets the condition keeps the registration sound. -/
theorem Sound.step {hub : HubSide} {w : Registration} {e : SyncEvent} (h : Sound hub w)
    (hok : SyncOk w e) : Sound hub (w.after hub e) := by
  have hdoes := after_does h.faithful e hok
  have hadvances := hdoes.truthful.advances
  rcases hdoes.issues with hissued | ⟨state, hissued, hcurrent, hhonest⟩
  · refine ⟨hdoes.faithful, ?_, h.ordered.advance hadvances hissued⟩
    rw [hissued]
    exact h.honest
  · refine ⟨hdoes.faithful, ?_, ?_⟩
    · intro a ha
      rcases List.mem_cons.mp (hissued ▸ ha) with rfl | ha
      · exact hhonest
      · exact h.honest a ha
    · have hbefore : Ordered ⟨(w.after hub e).registry, w.issued, w.flights⟩ :=
        h.ordered.advance hadvances rfl
      exact hbefore.issue rfl hissued hcurrent

/-- The registration begins sound. -/
theorem sound_opening (hub : HubSide) : Sound hub Registration.opening := by
  refine ⟨fun row hrow => ?_, fun a ha => ?_, fun a ha => ?_, fun a ha => ?_, fun a ha => ?_⟩
  · cases hrow
  · cases ha
  · cases ha
  · cases ha
  · cases ha

/-- What is read has the hash that comes with it, revisions that were handed out belong to one
hash each, and every step tells the truth about what the Agent has acknowledged. -/
theorem acknowledgements_true {hub : HubSide} {es : List SyncEvent} {w : Registration}
    (hrun : Run (Guarded (fun w e w' => w.after hub e = w') SyncOk) Registration.opening es w) :
    (∀ a ∈ w.issued, Honest hub a) ∧
      (∀ a ∈ w.issued, ∀ b ∈ w.issued, a.revision = b.revision → a.hash = b.hash) ∧
      ∀ e, SyncOk w e → Truthful w e (w.after hub e) := by
  have hsound : Sound hub w := by
    refine hrun.invariant (sound_opening hub) ?_
    rintro a e b hsound ⟨rfl, hok⟩
    exact hsound.step hok
  exact ⟨hsound.honest, hsound.ordered.unique, fun e hok => (after_does hsound.faithful e hok).truthful⟩

/-! ## An older Node -/

/-- A cipher with a mark in front of the text. -/
def marked : FileCipher where
  encrypt := fun _ s => "gAAAA" ++ s
  decrypt := fun s => some (String.ofList (s.toList.drop 5))
  decrypt_encrypt := by
    intro _ s
    simp

/-- A Hub whose digest of a configuration is its label. -/
def labelled : HubSide where
  cipher := marked
  size := fun _ => 2
  digest := fun d => ((d.get? "label").bind textOf).getD ""
  text := fun _ => ""
  parseInt := String.toInt?
  agentId := "agent"

/-- A configuration with a label and one assignment. -/
def labelledPayload (label : String) : { d : Doc Scalar // Plain d } :=
  ⟨.dict [("label", textDoc label),
      ("assignments", .list [.dict [("sourceInboundId", numberDoc 1)]])],
    by simp [Doc.keys], by simp [Doc.itemsAt, Doc.get?, Doc.field?],
    by simp [Doc.itemsAt, Doc.get?, Doc.field?]⟩

/-- The Hub has sent a configuration for an inbound that it assigned. -/
def oneSent : Registration :=
  (((Registration.opening.after labelled (.assign 1 1 true)).after labelled
    (.set 2 0 (labelledPayload "first"))).after labelled (.read 3 0)).after labelled
      (.send 4 0 0 (some [1]) .passed)

/-- The acknowledgement of the configuration. -/
def oneAnswer : SyncEvent :=
  .answer 5 0 (.ok (.dict [("service", textDoc "DARK XRAY NODE"), ("appliedRevision", numberDoc 1),
    ("appliedHash", textDoc "first"), ("items", .list [.dict [("sourceInboundId", numberDoc 1),
      ("remoteInboundId", numberDoc 7)]])]))

example : (oneSent.after labelled oneAnswer).registry.applied = (1, "first") := by
  decide +kernel

/-- A run with one step more. -/
theorem run_step {hub : HubSide} {es : List SyncEvent} {w : Registration}
    (h : Run (Guarded (fun w e w' => w.after hub e = w') SyncOk) Registration.opening es w)
    (e : SyncEvent) (hok : SyncOk w e) :
    Run (Guarded (fun w e w' => w.after hub e = w') SyncOk) Registration.opening (es ++ [e])
      (w.after hub e) :=
  h.snoc ⟨rfl, hok⟩

/-- After one answer the acknowledgement is honest. -/
theorem acknowledgements_true_once :
    (∀ a ∈ (oneSent.after labelled oneAnswer).issued, Honest labelled a) ∧
      (∀ a ∈ (oneSent.after labelled oneAnswer).issued,
        ∀ b ∈ (oneSent.after labelled oneAnswer).issued, a.revision = b.revision →
          a.hash = b.hash) ∧
      ∀ e, SyncOk (oneSent.after labelled oneAnswer) e →
        Truthful (oneSent.after labelled oneAnswer) e
          ((oneSent.after labelled oneAnswer).after labelled e) := by
  have hset : ((Registration.opening.after labelled (.assign 1 1 true)).after labelled
      (.set 2 0 (labelledPayload "first"))).registry.desired ≠ none := by
    intro hnone
    have hrevision := congrArg (fun d => Option.elim d 0 DesiredRow.revision) hnone
    revert hrevision
    decide +kernel
  exact acknowledgements_true (run_step (run_step (run_step (run_step (run_step Run.nil
    (.assign 1 1 true) trivial) (.set 2 0 (labelledPayload "first")) trivial) (.read 3 0) hset)
      (.send 4 0 0 (some [1]) .passed) trivial) oneAnswer trivial)

/-- A new configuration was set while the old one was in flight, and the Agent does not know
how to apply one. -/
def overtaken : Registration :=
  (oneSent.after labelled (.set 5 0 (labelledPayload "second"))).after labelled
    (.answer 6 0 (.error ⟨"Node HTTP 404", by decide⟩))

/-- The inbounds that the older Node mirrors. -/
def mirrorAnswer : SyncEvent :=
  .mirrored 7 0 (.ok (.dict [("items", .list [.dict [("sourceInboundId", numberDoc 1),
    ("remoteInboundId", numberDoc 7)]])]))

/-- The answer to a refused configuration that is no longer current changes an assignment. -/
theorem stale_mirrors_recorded :
    ∃ es w e, Run (fun w e w' => w.after labelled e = w') Registration.opening es w ∧
      ¬ Truthful w e (w.after labelled e) := by
  refine ⟨[_, _, _, _, _, _], overtaken, mirrorAnswer, (((((Run.nil.snoc rfl).snoc rfl).snoc
    rfl).snoc rfl).snoc rfl).snoc rfl, fun htruthful => ?_⟩
  have hflight : overtaken.flights.length = 1 := by
    decide +kernel
  obtain ⟨f, hf⟩ := List.length_eq_one_iff.mp hflight
  have hstale : ¬ overtaken.registry.Current f.state := by
    intro hcurrent
    have hrevision := hcurrent.revision
    have hsent : (overtaken.flights.map fun f => f.state.revision) = [1] := by
      decide +kernel
    have hnow : overtaken.registry.revision = 2 := by
      decide +kernel
    rw [hf, List.map_singleton, List.singleton_inj] at hsent
    omega
  have hkept := (htruthful.stale 0 f rfl (by rw [hf]; rfl) hstale).2
  have hbefore : (overtaken.registry.assignments.get? 1).map AssignmentRow.remoteInboundId =
      some 0 := by
    decide +kernel
  have hafter : ((overtaken.after labelled mirrorAnswer).registry.assignments.get? 1).map
      AssignmentRow.remoteInboundId = some 7 := by
    decide +kernel
  rw [hkept, hbefore] at hafter
  cases hafter

end Nodes
end DarkXray
