import DarkXray.Library.Tables
import DarkXray.Library.Transactions
import DarkXray.Nodes.Sealing

/-!
# Acknowledgements of a desired state

{lit}`NodeRegistry` on the Hub for one Node and one installation: the desired state with its
revision and hash, the assignments of inbounds, and the synchronisation that sends a desired
state to the Agent and records what the Agent acknowledges.  Between the request and the
answer everything on the Hub may change.

Main results:

- Theorem {lit}`setDesiredState_does`: a stored configuration opens to one with the stored hash.
- Theorem {lit}`desiredState_does`: a configuration that is read has the hash that comes with it.
- Theorem {lit}`settle_does`: an answer is recorded exactly as it came, or not at all.
-/

namespace DarkXray
namespace Nodes

open Library Policy

/-! ## The registry -/

/-- What the Hub takes from the standard library and from its installation: the size and the
digest of a canonical text, the text and the number that a value stands for, and the identity
of the Agent. -/
structure HubSide where
  cipher : FileCipher
  size : Doc Scalar → ℕ
  digest : Doc Scalar → String
  text : Doc Scalar → String
  parseInt : String → Option ℤ
  agentId : String

/-- A row of {lit}`remote_node_desired_state`; the text of the configuration is represented
by its document. -/
structure DesiredRow where
  revision : ℕ
  hash : String
  json : Doc Scalar
  updatedAt : ℕ
  appliedRevision : ℕ
  appliedHash : String
  appliedAt : ℕ
  lastError : String

/-- A row of {lit}`remote_node_inbounds`. -/
structure AssignmentRow where
  remoteInboundId : ℤ
  lastSync : ℕ
  lastError : String
  updatedAt : ℕ

/-- What the Hub keeps about the Node: {lit}`persisted` tells that ordered control has a row,
{lit}`generated` are the sources of the listeners that the Hub makes itself. -/
structure Registry where
  desired : Option DesiredRow
  assignments : Table ℤ AssignmentRow
  persisted : Bool
  generated : List ℤ
  lastHealth : Doc Scalar

namespace Registry

/-- The revision, which is zero before there is a desired state. -/
def revision (r : Registry) : ℕ :=
  r.desired.elim 0 DesiredRow.revision

/-- The hash, if there is a desired state. -/
def hash? (r : Registry) : Option String :=
  r.desired.map DesiredRow.hash

/-- The acknowledged pair. -/
def applied (r : Registry) : ℕ × String :=
  r.desired.elim (0, "") fun row => (row.appliedRevision, row.appliedHash)

end Registry

/-- A desired state as it is handed out and sent. -/
structure DesiredState where
  revision : ℕ
  hash : String
  payload : Doc Scalar

/-- The desired state is still the one of the registry. -/
def Registry.Current (r : Registry) (state : DesiredState) : Prop :=
  ∃ row, r.desired = some row ∧ state.revision = row.revision ∧ state.hash = row.hash

/-! ## Desired states -/

/-- {lit}`_desired_payload`; only the digest is used. -/
def desiredPayload (hub : HubSide) (value : Doc Scalar) : Except Failure String := do
  check (value.isDict = true) "Node desired state must be an object"
  check (hub.size value.canonical ≤ 8 * 1024 * 1024) "Node desired state is too large"
  return hub.digest value.canonical

/-- What {lit}`set_desired_state` puts over the value: the identity of the Agent, and a
stopped core once ordered control is in use. -/
def overlay (hub : HubSide) (persisted : Bool) (value : Doc Scalar) : Doc Scalar :=
  let named := if "nodeId" ∈ value.keys then value.set "nodeId" (textDoc hub.agentId) else value
  if persisted then named.set "desiredRunning" (flagDoc false) else named

/-- What {lit}`set_desired_state` returns. -/
structure SetReply where
  revision : ℕ
  hash : String
  changed : Bool
  pending : Bool
  updatedAt : ℕ

/-- {lit}`set_desired_state`. -/
def setDesiredState (hub : HubSide) (now nonce : ℕ) (value : Doc Scalar) :
    Tx Registry Failure SetReply := Tx.transaction do
  let persisted ← Tx.read Registry.persisted
  let digest ← Tx.ofExcept (desiredPayload hub (overlay hub persisted value))
  let old ← Tx.read Registry.desired
  match old.filter fun row => row.hash = digest with
  | some row => pure ⟨row.revision, digest, false,
      row.lastError ≠ "" ∨ row.revision ≠ row.appliedRevision ∨ digest ≠ row.appliedHash,
      row.updatedAt⟩
  | none => do
      let json ← Tx.ofExcept (sealPayload hub.cipher nonce (overlay hub persisted value))
      let revision := old.elim 0 DesiredRow.revision + 1
      let appliedRevision := old.elim 0 DesiredRow.appliedRevision
      let appliedHash := old.elim "" DesiredRow.appliedHash
      let appliedAt := old.elim 0 DesiredRow.appliedAt
      Tx.write fun r => { r with
        desired := some ⟨revision, digest, json, now, appliedRevision, appliedHash, appliedAt, ""⟩ }
      pure ⟨revision, digest, true, revision ≠ appliedRevision ∨ digest ≠ appliedHash, now⟩

/-- A configuration that must be stopped before it is handed out. -/
def mustStop (persisted : Bool) (value : Doc Scalar) : Bool :=
  persisted && !equalsInt ((value.get? "desiredRunning").getD (flagDoc true)) 0

/-- {lit}`_desired_state_locked`, with a bound on the depth of its recursion. -/
def readDesiredState (hub : HubSide) (now nonce : ℕ) : ℕ → Tx Registry Failure DesiredState
  | 0 => Tx.raise (.policyError "maximum recursion depth exceeded")
  | depth + 1 => do
      let desired ← Tx.read Registry.desired
      match desired with
      | none => pure ⟨0, "", .dict []⟩
      | some row => do
          let value ← Tx.ofExcept (openPayload hub.cipher row.json)
          let persisted ← Tx.read Registry.persisted
          if mustStop persisted value then do
            let _ ← setDesiredState hub now nonce value
            readDesiredState hub now nonce depth
          else pure ⟨row.revision, row.hash, value⟩

/-- {lit}`desired_state`. -/
def desiredState (hub : HubSide) (now nonce : ℕ) : Tx Registry Failure DesiredState :=
  readDesiredState hub now nonce 2

/-- {lit}`mark_desired_state`. -/
def markDesiredState (now revision : ℕ) (digest error : String) : Tx Registry Failure Unit := do
  Tx.require (digest.length ≤ 128) (.policyError "Invalid node apply acknowledgement")
  Tx.transaction do
    let desired ← Tx.read Registry.desired
    let row ← Tx.demand desired (.policyError "Node desired state is missing")
    Tx.require (revision = row.revision ∧ digest = row.hash)
      (.policyError "Node acknowledged a stale desired state")
    Tx.write fun r => { r with
      desired := some (if error ≠ "" then { row with lastError := (error.take 500).toString }
        else { row with
          appliedRevision := revision, appliedHash := digest, appliedAt := now, lastError := "" }) }

/-! ## Assignments -/

/-- The row of an inbound that has just been assigned. -/
def freshAssignment (now : ℕ) : AssignmentRow :=
  ⟨0, 0, "", now⟩

/-- An inbound is assigned; a row that is there stays. -/
def assignOne (now : ℕ) (t : Table ℤ AssignmentRow) (source : ℤ) : Table ℤ AssignmentRow :=
  t.upsert source (freshAssignment now) fun row => { row with updatedAt := now }

/-- {lit}`set_inbound_assignment`. -/
def setInboundAssignment (now : ℕ) (source : ℤ) (assigned : Bool) : Tx Registry Failure Unit := do
  Tx.require (1 ≤ source) (.policyError "Invalid inbound deployment assignment")
  Tx.write fun r => { r with
    assignments := if assigned then assignOne now r.assignments source
      else r.assignments.erase source }

/-- The assignments that {lit}`put` leaves: those it was given, and no other. -/
def putAssignments (now : ℕ) (sources : List ℤ) : Tx Registry Failure Unit := do
  Tx.require (sources.length ≤ 256 ∧ ∀ source ∈ sources, 1 ≤ source)
    (.policyError "Invalid node inbound assignment")
  Tx.write fun r => { r with
    assignments := (sources.foldl (assignOne now) r.assignments).filterRows
      fun source _ => source ∈ sources }

/-! ## Answers -/

/-- The dictionaries among the elements of a value; a value that has no elements raises
{lit}`TypeError`. -/
def elements : Doc Scalar → Except Failure (List (Doc Scalar))
  | .list items => .ok (items.filter Doc.isDict)
  | .atom (.str _) => .ok []
  | .dict _ => .ok []
  | _ => .error (.policyError "TypeError")

/-- {lit}`desired_sources`. -/
def desiredSources (payload : Doc Scalar) : Except Failure (List ℤ) := do
  let items ← elements ((payload.get? "assignments").getD (.list []))
  return items.filterMap fun item => (item.get? "sourceInboundId").bind integerOf

/-- {lit}`startswith`. -/
def hasPrefix (start text : String) : Bool :=
  start.toList.isPrefixOf text.toList

/-- The outbound belongs to a listener that the Hub makes. -/
def isHubOutbound (out : Doc Scalar) : Bool :=
  ((out.get? "tag").bind textOf).any fun tag =>
    hasPrefix "dark-relay-" tag || hasPrefix "dark-swap-" tag

/-- {lit}`relay_required`.  Sections without fields raise {lit}`AttributeError`. -/
def relayRequired (payload : Doc Scalar) : Except Failure Bool := do
  let sections := (payload.get? "sections").getD (.dict [])
  check (sections.isDict = true) "AttributeError"
  let outbounds ← elements ((sections.get? "outbounds").getD (.list []))
  return outbounds.any isHubOutbound

/-- The answer is an acknowledgement of the pair that was sent. -/
def acknowledgesPair (state : DesiredState) (doc : Doc Scalar) : Bool :=
  doc.isDict && (doc.get? "service").any (textOf · = some "DARK XRAY NODE") &&
    (doc.get? "appliedRevision").any (equalsInt · state.revision) &&
    (doc.get? "appliedHash").any (textOf · = some state.hash)

/-- The inbound of the Agent that an item names for a source, if the item is valid. -/
def validItem (sources : List ℤ) (seen : List (ℤ × ℤ)) (item : Doc Scalar) : Option (ℤ × ℤ) :=
  match (item.get? "sourceInboundId").bind integerOf,
      (item.get? "remoteInboundId").bind integerOf with
  | some source, some remote =>
      if source ∈ sources ∧ source ∉ seen.map Prod.fst ∧ 1 ≤ remote ∧
          ((item.get? "error").elim false isTruthy) = false then some (source, remote)
      else none
  | _, _ => none

/-- {lit}`by_source`, if all items are valid. -/
def bySource (sources : List ℤ) (seen : List (ℤ × ℤ)) : List (Doc Scalar) → Option (List (ℤ × ℤ))
  | [] => some seen
  | item :: items => (validItem sources seen item).bind fun pair =>
      bySource sources (seen ++ [pair]) items

/-- The items of an answer, if they are valid and complete. -/
def answeredItems (sources : List ℤ) (doc : Doc Scalar) : Option (List (ℤ × ℤ)) :=
  (((doc.get? "items").bind Doc.list?).bind (bySource sources [])).filter fun found =>
    sources.all (· ∈ found.map Prod.fst)

/-- The row of an assignment after an acknowledgement. -/
def acknowledgedRow (now : ℕ) (found : List (ℤ × ℤ)) (source : ℤ) : AssignmentRow :=
  match found.lookup source with
  | some remote => ⟨remote, now, "", now⟩
  | none => ⟨0, now, "not present in desired state", now⟩

/-- What an acknowledgement writes. -/
def Registry.acknowledge (now : ℕ) (state : DesiredState) (found : List (ℤ × ℤ)) (doc : Doc Scalar)
    (row : DesiredRow) (r : Registry) : Registry :=
  { r with
    desired := some { row with
      appliedRevision := state.revision, appliedHash := state.hash, appliedAt := now,
      lastError := "" }
    assignments := r.assignments.mapRows fun source _ => acknowledgedRow now found source
    lastHealth :=
      let health := if r.lastHealth.isDict then r.lastHealth else .dict []
      match doc.get? "core" with
      | some core => if core.isDict then health.set "core" core else health
      | none => health }

/-- The transaction that records an acknowledgement. -/
def recordAcknowledgement (now : ℕ) (state : DesiredState) (sources : List ℤ)
    (found : List (ℤ × ℤ)) (doc : Doc Scalar) : Tx Registry Failure Unit := Tx.transaction do
  let desired ← Tx.read Registry.desired
  let row ← Tx.demand (desired.filter fun row =>
      row.revision = state.revision ∧ row.hash = state.hash)
    (.policyError "Node acknowledged a stale desired state")
  let assignments ← Tx.read Registry.assignments
  let generated ← Tx.read Registry.generated
  Tx.require (∀ source ∈ sources, (assignments.get? source).isSome = true ∨ source ∈ generated)
    (.policyError "Node assignments changed while applying desired state")
  Tx.write (Registry.acknowledge now state found doc row)

/-- The part of {lit}`_sync_desired_state_locked` after an answer has come. -/
def settle (now : ℕ) (state : DesiredState) (doc : Doc Scalar) : Tx Registry Failure Unit :=
  if acknowledgesPair state doc then do
    let sources ← Tx.ofExcept (desiredSources state.payload)
    match answeredItems sources doc with
    | some found => recordAcknowledgement now state sources found doc
    | none => do
        let message := "Node returned incomplete or invalid assignment acknowledgements"
        markDesiredState now state.revision state.hash message
        Tx.raise (.policyError message)
  else do
    let message := "Node returned an invalid desired-state acknowledgement"
    markDesiredState now state.revision state.hash message
    Tx.raise (.policyError message)

/-! ## The mirrors of older Nodes -/

/-- {lit}`int(value or 0)`. -/
def intOrZero (hub : HubSide) (value : Option (Doc Scalar)) : Except Failure ℤ :=
  match value.filter isTruthy with
  | none => .ok 0
  | some (.atom (.int n)) => .ok n
  | some (.atom (.bool b)) => .ok (if b then 1 else 0)
  | some (.atom (.float q)) => .ok (Int.tdiv q.num q.den)
  | some (.atom (.str s)) => need (hub.parseInt s) "ValueError"
  | some _ => .error (.policyError "TypeError")

/-- The last item for a source; {lit}`by_source.get(source,{})`. -/
def mirrorItem (items : List (Doc Scalar)) (source : ℤ) : Doc Scalar :=
  ((items.filter fun item => (item.get? "sourceInboundId").bind integerOf = some source).getLast?).getD
    (.dict [])

/-- The loop of {lit}`sync_mirrors` over the bundles. -/
def mirrorRows (hub : HubSide) (now : ℕ) (items : List (Doc Scalar)) :
    List ℤ → Table ℤ AssignmentRow → Except Failure (Table ℤ AssignmentRow)
  | [], t => .ok t
  | source :: sources, t => do
      let item := mirrorItem items source
      let remote ← intOrZero hub (item.get? "remoteInboundId")
      let error := ((item.get? "error").filter isTruthy).elim "" hub.text
      mirrorRows hub now items sources
        (t.update source fun _ => ⟨remote, now, (error.take 300).toString, now⟩)

/-- The part of {lit}`sync_mirrors` after an answer has come. -/
def recordMirrors (hub : HubSide) (now : ℕ) (bundles : List ℤ) (doc : Doc Scalar) :
    Tx Registry Failure Unit := do
  let items ← Tx.ofExcept (need ((doc.get? "items").bind Doc.list?)
    "Invalid node mirror sync response")
  Tx.transaction do
    let assignments ← Tx.read Registry.assignments
    let t ← Tx.ofExcept (mirrorRows hub now items bundles assignments)
    Tx.write fun r => { r with assignments := t }

/-! ## What an operation does to the desired state -/

/-- A stored configuration opens to one whose canonical digest is the stored hash. -/
def Faithful (hub : HubSide) (r : Registry) : Prop :=
  ∀ row, r.desired = some row → ∃ value, openPayload hub.cipher row.json = .ok value ∧
    value.isDict = true ∧ Plain value ∧ hub.digest value.canonical = row.hash

/-- The revision and the hash stay, or both become new. -/
def Advances (r r' : Registry) : Prop :=
  (r'.revision = r.revision ∧ r'.hash? = r.hash?) ∨
    (r.revision < r'.revision ∧ r'.hash? ≠ r.hash?)

/-- The registry after a configuration was set. -/
structure Redesired (r r' : Registry) : Prop where
  advances : Advances r r'
  applied : r'.applied = r.applied
  assignments : r'.assignments = r.assignments
  persisted : r'.persisted = r.persisted
  generated : r'.generated = r.generated

/-- The same registry has the same desired state. -/
theorem Redesired.refl (r : Registry) : Redesired r r :=
  ⟨.inl ⟨rfl, rfl⟩, rfl, rfl, rfl, rfl⟩

/-- The overlay of a plain document is plain. -/
theorem overlay_plain {hub : HubSide} {persisted : Bool} {value : Doc Scalar} (h : Plain value) :
    Plain (overlay hub persisted value) := by
  have hnamed : Plain (if "nodeId" ∈ value.keys then value.set "nodeId" (textDoc hub.agentId)
      else value) := by
    split
    · exact h.set (by decide) _
    · exact h
  unfold overlay
  dsimp only
  split
  · exact hnamed.set (by decide) _
  · exact hnamed

/-- The overlay leaves the kind of a document. -/
theorem isDict_overlay (hub : HubSide) (persisted : Bool) (value : Doc Scalar) :
    (overlay hub persisted value).isDict = value.isDict := by
  have hnamed : (if "nodeId" ∈ value.keys then value.set "nodeId" (textDoc hub.agentId)
      else value).isDict = value.isDict := by
    split
    · exact Doc.isDict_set value _ _
    · rfl
  unfold overlay
  dsimp only
  split
  · rw [Doc.isDict_set]
    exact hnamed
  · exact hnamed

/-- The overlay has stopped what must be stopped. -/
theorem not_mustStop_overlay {hub : HubSide} {value : Doc Scalar}
    (hd : value.isDict = true) : mustStop true (overlay hub true value) = false := by
  have hnamed := isDict_overlay hub false value
  simp only [overlay, if_true, mustStop, Bool.false_eq_true, if_false] at hnamed ⊢
  rw [Doc.get?_set (hnamed.trans hd), if_pos rfl]
  rfl

/-- The digest of an accepted payload. -/
theorem desiredPayload_ok {hub : HubSide} {value : Doc Scalar} {digest : String}
    (h : desiredPayload hub value = .ok digest) :
    value.isDict = true ∧ digest = hub.digest value.canonical := by
  simp only [desiredPayload, check, except_bind_ok_iff, ensure_ok_iff, except_pure_ok_iff] at h
  obtain ⟨_, hdict, _, _, rfl⟩ := h
  exact ⟨hdict, rfl⟩

/-- Setting a configuration writes nothing, or a new revision with another hash. -/
theorem setDesiredState_cases (hub : HubSide) (now nonce : ℕ) (value : Doc Scalar) (r : Registry) :
    (setDesiredState hub now nonce value r).2 = r ∨
      ∃ digest json row, desiredPayload hub (overlay hub r.persisted value) = .ok digest ∧
        sealPayload hub.cipher nonce (overlay hub r.persisted value) = .ok json ∧
        r.hash? ≠ some digest ∧
        (setDesiredState hub now nonce value r).2 = { r with desired := some row } ∧
        row.revision = r.revision + 1 ∧ row.hash = digest ∧ row.json = json ∧
        (row.appliedRevision, row.appliedHash) = r.applied := by
  unfold setDesiredState Tx.transaction
  simp only [Tx.read_bind]
  cases hdigest : desiredPayload hub (overlay hub r.persisted value) with
  | error e => exact .inl rfl
  | ok digest =>
      simp only [Tx.bind_apply, Tx.ofExcept, Tx.read]
      cases hold : r.desired.filter fun row => row.hash = digest with
      | some row => exact .inl rfl
      | none =>
          have hnew : r.hash? ≠ some digest := by
            intro hhash
            obtain ⟨row, hrow, hsame⟩ := Option.map_eq_some_iff.mp hhash
            simp [hrow, hsame] at hold
          cases hjson : sealPayload hub.cipher nonce (overlay hub r.persisted value) with
          | error e => exact .inl rfl
          | ok json =>
              refine .inr ⟨digest, json, _, rfl, rfl, hnew, rfl, rfl, rfl, rfl, ?_⟩
              unfold Registry.applied
              cases r.desired with
              | none => rfl
              | some row => rfl

/-- What a written configuration opens to. -/
theorem opens_written {hub : HubSide} {nonce : ℕ} {persisted : Bool} {value json : Doc Scalar}
    {digest : String} (hv : Plain value)
    (hdigest : desiredPayload hub (overlay hub persisted value) = .ok digest)
    (hjson : sealPayload hub.cipher nonce (overlay hub persisted value) = .ok json) :
    ∃ opened, openPayload hub.cipher json = .ok opened ∧
      opened.canonical = (overlay hub persisted value).canonical ∧ Plain opened ∧
      opened.isDict = true ∧ hub.digest opened.canonical = digest := by
  obtain ⟨hdict, hsum⟩ := desiredPayload_ok hdigest
  obtain ⟨opened, hopened, hcanonical, hplain⟩ :=
    openPayload_sealPayload hdict (overlay_plain hv) hjson
  refine ⟨opened, hopened, hcanonical, hplain, ?_, ?_⟩
  · rw [← Doc.isDict_canonical, hcanonical, Doc.isDict_canonical]
    exact hdict
  · rw [hcanonical, hsum]

/-- Setting a configuration. -/
theorem setDesiredState_does {hub : HubSide} (now nonce : ℕ) {value : Doc Scalar} {r : Registry}
    (hf : Faithful hub r) (hv : Plain value) :
    Redesired r (setDesiredState hub now nonce value r).2 ∧
      Faithful hub (setDesiredState hub now nonce value r).2 := by
  rcases setDesiredState_cases hub now nonce value r with hsame | hwritten
  · rw [hsame]
    exact ⟨Redesired.refl r, hf⟩
  · obtain ⟨digest, json, row, hdigest, hjson, hnew, hafter, hrevision, hhash, hstored, happlied⟩ :=
      hwritten
    obtain ⟨opened, hopened, -, hplain, hdict, hsum⟩ := opens_written hv hdigest hjson
    rw [hafter]
    refine ⟨⟨.inr ⟨?_, ?_⟩, happlied, rfl, rfl, rfl⟩, ?_⟩
    · have hlater : r.revision < row.revision := by omega
      exact hlater
    · intro hsame
      refine hnew ?_
      rw [← hsame, ← hhash]
      rfl
    · rintro _ ⟨⟩
      exact ⟨opened, hstored ▸ hopened, hdict, hplain, hsum.trans hhash.symm⟩

/-! ## What is handed out -/

/-- A number is the same in canonical form. -/
theorem equalsInt_canonical (d : Doc Scalar) (n : ℤ) : equalsInt d.canonical n = equalsInt d n := by
  cases d <;> simp [Doc.canonical, equalsInt, Doc.atom?]

/-- Whether a configuration must be stopped shows in its canonical form. -/
theorem mustStop_congr {persisted : Bool} {v w : Doc Scalar} (hv : v.keys.Nodup) (hw : w.keys.Nodup)
    (h : v.canonical = w.canonical) : mustStop persisted v = mustStop persisted w := by
  have hrunning : ∀ d : Doc Scalar, d.keys.Nodup →
      equalsInt ((d.canonical.get? "desiredRunning").getD (flagDoc true)) 0 =
        equalsInt ((d.get? "desiredRunning").getD (flagDoc true)) 0 := by
    intro d hd
    rw [Doc.get?_canonical hd]
    cases d.get? "desiredRunning" with
    | none => rfl
    | some x => exact equalsInt_canonical x 0
  rw [mustStop, mustStop, ← hrunning v hv, ← hrunning w hw, h]

/-- A desired state that is honest about its hash. -/
def Honest (hub : HubSide) (state : DesiredState) : Prop :=
  hub.digest state.payload.canonical = state.hash

/-- What a read does. -/
structure ReadDoes (hub : HubSide) (r : Registry) (result : Except Failure DesiredState × Registry) :
    Prop where
  redesired : Redesired r result.2
  faithful : Faithful hub result.2
  honest : ∀ state, r.desired ≠ none → result.1 = .ok state →
    result.2.Current state ∧ Honest hub state

/-- One level of the recursion: the configuration is handed out, or it is stopped first. -/
theorem readDesiredState_succ (hub : HubSide) (now nonce depth : ℕ) {r : Registry} {row : DesiredRow}
    {value : Doc Scalar} (hrow : r.desired = some row)
    (hopen : openPayload hub.cipher row.json = .ok value) :
    readDesiredState hub now nonce (depth + 1) r =
      if mustStop r.persisted value then
        (setDesiredState hub now nonce value >>= fun _ => readDesiredState hub now nonce depth) r
      else (.ok ⟨row.revision, row.hash, value⟩, r) := by
  rw [readDesiredState]
  simp only [hrow, Tx.bind_apply, Tx.ofExcept, hopen, Tx.read]
  by_cases hstop : mustStop r.persisted value = true
  · rw [if_pos hstop, if_pos hstop]
    rfl
  · rw [if_neg hstop, if_neg hstop, Tx.pure_apply]

/-- After a configuration was stopped it is handed out, unless the stopped one has the same
hash and nothing was written. -/
theorem read_after_set {hub : HubSide} {now nonce : ℕ} {r r' : Registry} {value : Doc Scalar}
    {reply : SetReply} (hdict : value.isDict = true) (hplain : Plain value)
    (hstop : mustStop r.persisted value = true)
    (hset : setDesiredState hub now nonce value r = (.ok reply, r')) :
    r' = r ∨ ∃ state, (∀ depth, readDesiredState hub now nonce (depth + 1) r' = (.ok state, r')) ∧
      r'.Current state ∧ Honest hub state := by
  rcases setDesiredState_cases hub now nonce value r with hsame | hwritten
  · rw [hset] at hsame
    exact .inl hsame
  · obtain ⟨digest, json, row', hdigest, hjson, -, hafter, -, hhash, hstored, -⟩ := hwritten
    rw [hset] at hafter
    obtain rfl : r' = { r with desired := some row' } := hafter
    obtain ⟨opened, hopened, hcanonical, hplain', -, hsum⟩ := opens_written hplain hdigest hjson
    have hopen' : openPayload hub.cipher row'.json = .ok opened := hstored ▸ hopened
    have hpersisted : r.persisted = true := by
      by_contra hoff
      simp [mustStop, hoff] at hstop
    have hgo : mustStop r.persisted opened = false := by
      rw [mustStop_congr hplain'.keys (overlay_plain hplain).keys hcanonical, hpersisted]
      exact not_mustStop_overlay hdict
    refine .inr ⟨⟨row'.revision, row'.hash, opened⟩, fun depth => ?_, ⟨row', rfl, rfl, rfl⟩,
      hsum.trans hhash.symm⟩
    rw [readDesiredState_succ hub now nonce depth rfl hopen', if_neg (by simp [hgo])]

/-- Nothing is handed out if stopping a configuration writes nothing. -/
theorem readDesiredState_stuck {hub : HubSide} {now nonce : ℕ} {r : Registry} {row : DesiredRow}
    {value : Doc Scalar} {reply : SetReply} (hrow : r.desired = some row)
    (hopen : openPayload hub.cipher row.json = .ok value)
    (hstop : mustStop r.persisted value = true)
    (hset : setDesiredState hub now nonce value r = (.ok reply, r)) (depth : ℕ) :
    readDesiredState hub now nonce depth r =
      (.error (.policyError "maximum recursion depth exceeded"), r) := by
  induction depth with
  | zero => rfl
  | succ depth ih =>
      rw [readDesiredState_succ hub now nonce depth hrow hopen, if_pos hstop, Tx.bind_apply, hset]
      exact ih

/-- A read hands out a configuration with the hash that it comes with. -/
theorem desiredState_does {hub : HubSide} (now nonce : ℕ) {r : Registry} (hf : Faithful hub r) :
    ReadDoes hub r (desiredState hub now nonce r) := by
  cases hrow : r.desired with
  | none =>
      have hread : desiredState hub now nonce r = (.ok ⟨0, "", .dict []⟩, r) := by
        rw [desiredState, readDesiredState]
        simp only [Tx.read_bind, hrow]
        rfl
      rw [hread]
      exact ⟨Redesired.refl r, hf, fun _ hsome => absurd hrow hsome⟩
  | some row =>
      obtain ⟨value, hopen, hdict, hplain, hsum⟩ := hf row hrow
      rw [desiredState, readDesiredState_succ hub now nonce 1 hrow hopen]
      by_cases hstop : mustStop r.persisted value = true
      · rw [if_pos hstop, Tx.bind_apply]
        obtain ⟨hredesired, hfaithful⟩ :=
          setDesiredState_does now nonce hf hplain
        rcases hset : setDesiredState hub now nonce value r with ⟨e | reply, r'⟩
        · rw [hset] at hredesired hfaithful
          exact ⟨hredesired, hfaithful, (by intro _ _ h; cases h)⟩
        · rw [hset] at hredesired hfaithful
          dsimp only
          rcases read_after_set hdict hplain hstop hset with rfl | ⟨state, hread, hcurrent, hhonest⟩
          · rw [readDesiredState_stuck hrow hopen hstop hset]
            exact ⟨hredesired, hfaithful, (by intro _ _ h; cases h)⟩
          · rw [hread 0]
            refine ⟨hredesired, hfaithful, ?_⟩
            rintro _ - ⟨⟩
            exact ⟨hcurrent, hhonest⟩
      · rw [if_neg hstop]
        refine ⟨Redesired.refl r, hf, ?_⟩
        rintro _ - ⟨⟩
        exact ⟨⟨row, hrow, rfl, rfl⟩, hsum⟩

/-! ## What is recorded about an answer -/

/-- A registry is faithful as long as its row keeps what was sent. -/
theorem faithful_of_row {hub : HubSide} {r r' : Registry} (hf : Faithful hub r)
    (h : ∀ row', r'.desired = some row' → ∃ row, r.desired = some row ∧
      row'.json = row.json ∧ row'.hash = row.hash) : Faithful hub r' := by
  intro row' hrow'
  obtain ⟨row, hrow, hjson, hhash⟩ := h row' hrow'
  obtain ⟨value, hopen, hdict, hplain, hsum⟩ := hf row hrow
  exact ⟨value, hjson ▸ hopen, hdict, hplain, hhash ▸ hsum⟩

/-- An error is noted next to the desired state, and nothing else. -/
theorem markDesiredState_cases (now revision : ℕ) (digest : String) {error : String} (herror : error ≠ "")
    (r : Registry) : (markDesiredState now revision digest error r).2 = r ∨
      ∃ row, r.desired = some row ∧ (markDesiredState now revision digest error r).2 =
        { r with desired := some { row with lastError := (error.take 500).toString } } := by
  by_cases hlength : digest.length ≤ 128
  · cases hrow : r.desired with
    | none =>
        left
        simp [markDesiredState, Tx.bind_apply, Tx.require, Tx.transaction, hlength, Tx.pure_apply,
          Tx.read, hrow, Tx.demand, Tx.raise]
    | some row =>
        by_cases hsame : revision = row.revision ∧ digest = row.hash
        · right
          obtain ⟨rfl, rfl⟩ := hsame
          refine ⟨row, rfl, ?_⟩
          simp [markDesiredState, Tx.bind_apply, Tx.require, Tx.transaction, hlength,
            Tx.pure_apply, Tx.read, hrow, Tx.demand, Tx.write, herror]
        · left
          simp [markDesiredState, Tx.bind_apply, Tx.require, Tx.transaction, hlength,
            Tx.pure_apply, Tx.read, hrow, Tx.demand, Tx.raise, hsame]
  · left
    simp [markDesiredState, Tx.bind_apply, Tx.require, hlength, Tx.raise]

/-- What an acknowledgement does to the registry. -/
theorem markDesiredState_does {hub : HubSide} (now revision : ℕ) (digest : String) {error : String}
    (herror : error ≠ "") {r : Registry} (hf : Faithful hub r) :
    Redesired r (markDesiredState now revision digest error r).2 ∧
      Faithful hub (markDesiredState now revision digest error r).2 := by
  rcases markDesiredState_cases now revision digest herror r
    with hsame | ⟨row, hrow, hwritten⟩
  · rw [hsame]
    exact ⟨Redesired.refl r, hf⟩
  · rw [hwritten]
    refine ⟨⟨.inl ⟨?_, ?_⟩, ?_, rfl, rfl, rfl⟩, faithful_of_row hf ?_⟩
    · simp [Registry.revision, hrow]
    · simp [Registry.hash?, hrow]
    · simp [Registry.applied, hrow]
    · rintro _ ⟨⟩
      exact ⟨row, hrow, rfl, rfl⟩

/-- An item of an answer names an inbound of the Agent for a source, without an error. -/
def Names (item : Doc Scalar) (source remote : ℤ) : Prop :=
  (item.get? "sourceInboundId").bind integerOf = some source ∧
    (item.get? "remoteInboundId").bind integerOf = some remote ∧ 1 ≤ remote ∧
    (item.get? "error").elim false isTruthy = false

/-- A valid item names a pair. -/
theorem validItem_eq_some {sources : List ℤ} {seen : List (ℤ × ℤ)} {item : Doc Scalar} {pair : ℤ × ℤ}
    (h : validItem sources seen item = some pair) :
    Names item pair.1 pair.2 ∧ pair.1 ∈ sources ∧ pair.1 ∉ seen.map Prod.fst := by
  unfold validItem at h
  split at h
  · next source remote hsource hremote =>
    split at h
    · next hvalid =>
      obtain rfl := Option.some.inj h
      exact ⟨⟨hsource, hremote, hvalid.2.2.1, hvalid.2.2.2⟩, hvalid.1, hvalid.2.1⟩
    · cases h
  · cases h

/-- The items that are read are those of the answer, one for each source. -/
theorem bySource_eq_some {sources : List ℤ} {seen found : List (ℤ × ℤ)} {items : List (Doc Scalar)}
    (hseen : (seen.map Prod.fst).Nodup) (h : bySource sources seen items = some found) :
    (found.map Prod.fst).Nodup ∧ ∃ new, found = seen ++ new ∧
      List.Forall₂ (fun item pair => Names item pair.1 pair.2) items new ∧
      ∀ pair ∈ new, pair.1 ∈ sources := by
  induction items generalizing seen with
  | nil =>
      obtain rfl := Option.some.inj h
      exact ⟨hseen, [], by simp, .nil, by simp⟩
  | cons item items ih =>
      rw [bySource] at h
      obtain ⟨pair, hpair, hrest⟩ := Option.bind_eq_some_iff.mp h
      obtain ⟨hnames, hsource, hfresh⟩ := validItem_eq_some hpair
      have hnodup : ((seen ++ [pair]).map Prod.fst).Nodup := by
        rw [List.map_append]
        refine List.nodup_append'.mpr ⟨hseen, by simp, ?_⟩
        intro k hk hk'
        obtain rfl : k = pair.1 := by simpa using hk'
        exact hfresh hk
      obtain ⟨hall, new, rfl, hitems, hin⟩ := ih hnodup hrest
      refine ⟨hall, pair :: new, by simp, .cons hnames hitems, ?_⟩
      intro p hp
      rcases List.mem_cons.mp hp with rfl | hp
      · exact hsource
      · exact hin p hp

/-- The items of an answer that acknowledges every source of a payload: one valid item for
each of them, and no other item. -/
structure Complete (sources : List ℤ) (items : List (Doc Scalar)) (found : List (ℤ × ℤ)) : Prop where
  named : List.Forall₂ (fun item pair => Names item pair.1 pair.2) items found
  once : (found.map Prod.fst).Nodup
  sources : ∀ source, source ∈ sources ↔ source ∈ found.map Prod.fst

/-- The pairs that an answer names. -/
theorem answeredItems_eq_some {sources : List ℤ} {doc : Doc Scalar} {found : List (ℤ × ℤ)}
    (h : answeredItems sources doc = some found) :
    ∃ items, doc.get? "items" = some (.list items) ∧ Complete sources items found := by
  unfold answeredItems at h
  obtain ⟨hfound, hall⟩ := Option.filter_eq_some_iff.mp h
  obtain ⟨items, hitems, hread⟩ := Option.bind_eq_some_iff.mp hfound
  obtain ⟨value, hvalue, hlist⟩ := Option.bind_eq_some_iff.mp hitems
  have hdoc : value = .list items := by
    cases value <;> simp_all [Doc.list?]
  obtain ⟨hnodup, new, hnew, hnamed, hin⟩ := bySource_eq_some (by simp) hread
  obtain rfl : found = new := by simpa using hnew
  refine ⟨items, hdoc ▸ hvalue, hnamed, hnodup, fun source => ⟨fun hs => ?_, fun hs => ?_⟩⟩
  · have hmem := List.all_eq_true.mp hall source hs
    simpa using hmem
  · obtain ⟨pair, hpair, rfl⟩ := List.mem_map.mp hs
    exact hin pair hpair

/-- What the Hub has recorded about an acknowledgement. -/
structure Acknowledged (r : Registry) (state : DesiredState) (doc : Doc Scalar) (r' : Registry) :
    Prop where
  current : r.Current state
  revision : (doc.get? "appliedRevision").any (equalsInt · state.revision) = true
  hash : doc.get? "appliedHash" = some (textDoc state.hash)
  applied : r'.applied = (state.revision, state.hash)
  items : ∃ sources items found, desiredSources state.payload = .ok sources ∧
    doc.get? "items" = some (.list items) ∧ Complete sources items found ∧
    ∀ source row, r'.assignments.get? source = some row →
      (0 < row.remoteInboundId ↔ source ∈ sources) ∧
      (source ∈ sources → (source, row.remoteInboundId) ∈ found)

/-- Every pair that was read is named by an item of the answer. -/
theorem Complete.named_of_mem {sources : List ℤ} {items : List (Doc Scalar)} {found : List (ℤ × ℤ)}
    (h : Complete sources items found) {pair : ℤ × ℤ} (hpair : pair ∈ found) :
    ∃ item ∈ items, Names item pair.1 pair.2 := by
  have hnamed := h.named
  clear h
  induction hnamed with
  | nil => cases hpair
  | cons hfirst _ ih =>
      rcases List.mem_cons.mp hpair with rfl | hrest
      · exact ⟨_, List.mem_cons_self, hfirst⟩
      · obtain ⟨item, hitem, hnames⟩ := ih hrest
        exact ⟨item, List.mem_cons_of_mem _ hitem, hnames⟩

/-- Every desired source is among the pairs of a complete answer. -/
theorem desiredSources_lookup {sources : List ℤ} {items : List (Doc Scalar)} {found : List (ℤ × ℤ)}
    (h : Complete sources items found) (source : ℤ) :
    source ∈ sources ↔ ∃ remote, found.lookup source = some remote := by
  rw [h.sources source]
  cases hlookup : found.lookup source with
  | none => simpa using lookup_eq_none_iff.mp hlookup
  | some remote =>
      have hmem := (lookup_eq_some_iff h.once).mp hlookup
      exact ⟨fun _ => ⟨remote, rfl⟩, fun _ => List.mem_map_of_mem hmem⟩

/-- The inbound that is recorded for an assignment is the one that was answered. -/
theorem acknowledgedRow_remote {sources : List ℤ} {items : List (Doc Scalar)} {found : List (ℤ × ℤ)}
    (h : Complete sources items found) (now : ℕ) (source : ℤ) :
    (0 < (acknowledgedRow now found source).remoteInboundId ↔ source ∈ sources) ∧
      (source ∈ sources → (source, (acknowledgedRow now found source).remoteInboundId) ∈ found) := by
  rw [desiredSources_lookup h source]
  unfold acknowledgedRow
  cases hlookup : found.lookup source with
  | none => simp
  | some remote =>
      have hmem := (lookup_eq_some_iff h.once).mp hlookup
      obtain ⟨item, -, hnames⟩ := h.named_of_mem hmem
      have hpos : 0 < remote := by
        have := hnames.2.2.1
        omega
      exact ⟨by simp [hpos], fun _ => hmem⟩

/-- Recording an acknowledgement changes nothing, or records exactly what was answered. -/
theorem recordAcknowledgement_cases (now : ℕ) (state : DesiredState) (sources : List ℤ)
    (found : List (ℤ × ℤ)) (doc : Doc Scalar) (r : Registry) :
    (recordAcknowledgement now state sources found doc r).2 = r ∨
      ∃ row, r.desired = some row ∧ row.revision = state.revision ∧ row.hash = state.hash ∧
        (recordAcknowledgement now state sources found doc r).2 =
          r.acknowledge now state found doc row := by
  cases hrow : r.desired.filter fun row => row.revision = state.revision ∧ row.hash = state.hash with
  | none =>
      left
      simp [-Bool.decide_and, recordAcknowledgement, Tx.bind_apply, Tx.transaction, Tx.read, hrow, Tx.demand,
        Tx.raise]
  | some row =>
      obtain ⟨hdesired, hsame⟩ := Option.filter_eq_some_iff.mp hrow
      have hsame' : row.revision = state.revision ∧ row.hash = state.hash := by simpa using hsame
      by_cases hin : ∀ source ∈ sources,
          (r.assignments.get? source).isSome = true ∨ source ∈ r.generated
      · right
        refine ⟨row, hdesired, hsame'.1, hsame'.2, ?_⟩
        simp [-Bool.decide_and, recordAcknowledgement, Tx.bind_apply, Tx.transaction, Tx.read, hrow, Tx.demand,
          Tx.require, Tx.pure_apply, if_pos hin, Tx.write]
      · left
        simp [-Bool.decide_and, recordAcknowledgement, Tx.bind_apply, Tx.transaction, Tx.read, hrow, Tx.demand,
          Tx.raise, Tx.require, Tx.pure_apply, if_neg hin]

/-- When an answer acknowledges a state. -/
theorem acknowledgesPair_iff {state : DesiredState} {doc : Doc Scalar}
    (h : acknowledgesPair state doc = true) :
    (doc.get? "appliedRevision").any (equalsInt · state.revision) = true ∧
      doc.get? "appliedHash" = some (textDoc state.hash) := by
  simp only [acknowledgesPair, Bool.and_eq_true] at h
  refine ⟨h.1.2, ?_⟩
  have hhash := h.2
  cases hget : doc.get? "appliedHash" with
  | none => simp [hget] at hhash
  | some d => simp_all [textOf_eq_some_iff]

/-- Settling an answer notes an error, or records exactly what was answered. -/
theorem settle_does {hub : HubSide} (now : ℕ) (state : DesiredState) (doc : Doc Scalar) {r : Registry}
    (hf : Faithful hub r) :
    Faithful hub (settle now state doc r).2 ∧
      (Redesired r (settle now state doc r).2 ∨
        (Acknowledged r state doc (settle now state doc r).2 ∧
          Advances r (settle now state doc r).2)) := by
  have hnote : ∀ message : String, message ≠ "" →
      ((markDesiredState now state.revision state.hash message >>= fun _ =>
        Tx.raise (.policyError message) : Tx Registry Failure Unit) r).2 =
        (markDesiredState now state.revision state.hash message r).2 := by
    intro message _
    rw [Tx.bind_apply]
    rcases markDesiredState now state.revision state.hash message r with ⟨e | u, r'⟩
    · rfl
    · rfl
  unfold settle
  by_cases hpair : acknowledgesPair state doc = true
  · rw [if_pos hpair, Tx.bind_apply]
    cases hsources : desiredSources state.payload with
    | error e => exact ⟨hf, .inl (Redesired.refl r)⟩
    | ok sources =>
        simp only [Tx.ofExcept]
        cases hfound : answeredItems sources doc with
        | none =>
            dsimp only
            rw [hnote _ (by decide)]
            obtain ⟨hredesired, hfaithful⟩ := markDesiredState_does now state.revision state.hash
              (show "Node returned incomplete or invalid assignment acknowledgements" ≠ "" by decide)
              hf
            exact ⟨hfaithful, .inl hredesired⟩
        | some found =>
            dsimp only
            obtain ⟨items, hitems, hcomplete⟩ := answeredItems_eq_some hfound
            obtain ⟨hrevision, hhash⟩ := acknowledgesPair_iff hpair
            rcases recordAcknowledgement_cases now state sources found doc r with
              hsame | ⟨row, hrow, hrev, hsum, hafter⟩
            · rw [hsame]
              exact ⟨hf, .inl (Redesired.refl r)⟩
            · rw [hafter]
              refine ⟨faithful_of_row hf ?_, .inr ⟨⟨⟨row, hrow, hrev.symm, hsum.symm⟩, hrevision,
                hhash, rfl, sources, items, found, hsources, hitems, hcomplete, ?_⟩, .inl ⟨?_, ?_⟩⟩⟩
              · rintro _ ⟨⟩
                exact ⟨row, hrow, rfl, rfl⟩
              · intro source row' hrow'
                rw [Registry.acknowledge, Table.get?_mapRows] at hrow'
                obtain ⟨old, -, rfl⟩ := Option.map_eq_some_iff.mp hrow'
                exact acknowledgedRow_remote hcomplete now source
              · simp [Registry.acknowledge, Registry.revision, hrow]
              · simp [Registry.acknowledge, Registry.hash?, hrow]
  · rw [if_neg hpair]
    rw [hnote _ (by decide)]
    obtain ⟨hredesired, hfaithful⟩ := markDesiredState_does now state.revision state.hash
      (show "Node returned an invalid desired-state acknowledgement" ≠ "" by decide) hf
    exact ⟨hfaithful, .inl hredesired⟩

end Nodes
end DarkXray
