import DarkXray.Library.Tables
import DarkXray.Policy.Basics

/-!
# Importing the traffic of a Node

A Node reports byte counters for every client it serves.  The Hub keeps for each
Node and client the counters of the last report and charges what was added since:
one ledger row for the difference, next to the running totals of the client.

Main results:

- Theorem {lit}`applyReading_other`: a report about one client leaves the usage
  row and the ledger of every other client alone.
- Theorem {lit}`applyReading_self`: a report charges its difference to the stored
  counters and stores the reported ones.
- Theorem {lit}`applyTrafficSnapshot_single`: what a whole snapshot does to a client
  that it reports once.
- Theorem {lit}`resetBaseline_ok`: what the second half of a reset does.
-/

namespace DarkXray
namespace Nodes

open Library Policy

/-! ## Tables -/

/-- A row of {lit}`remote_node_client_usage`. -/
structure UsageRow where
  rawUp : ℤ
  rawDown : ℤ
  currentUp : ℤ
  currentDown : ℤ
  seq : ℤ
  initialized : Bool
deriving DecidableEq, Repr

/-- A row of {lit}`traffic_ledger`. -/
structure LedgerRow where
  owner : String
  clientId : String
  period : ℤ
  upBytes : ℤ
  downBytes : ℤ
deriving DecidableEq, Repr

/-- A row of {lit}`managed_clients`; {lit}`inbounds` is {lit}`none` where the column
is no list of integers. -/
structure ManagedClient where
  inbounds : Option (List ℤ)
  deleted : Bool
  lastUp : ℤ
  lastDown : ℤ
deriving DecidableEq, Repr

/-- The columns of {lit}`clients` that metering uses. -/
structure MeteredClient where
  owner : String
  usedBytes : ℤ
deriving DecidableEq, Repr

/-- A row of {lit}`remote_node_inbounds`. -/
structure NodeInbound where
  nodeId : String
  localInboundId : ℤ
  remoteInboundId : ℤ
deriving DecidableEq, Repr

/-- The tables of the Hub that metering reads and writes; {lit}`periods` is the
period column of {lit}`owners`. -/
structure Hub where
  nodeInbounds : List NodeInbound
  managedClients : Table String ManagedClient
  clients : Table String MeteredClient
  periods : Table String ℤ
  usage : Table (String × String) UsageRow
  trafficLedger : Table String LedgerRow

/-- {lit}`_allowed_traffic_clients`. -/
def Hub.allowedTrafficClients (h : Hub) (nodeId : String) : List String :=
  let assigned := (h.nodeInbounds.filter fun r => r.nodeId = nodeId).map NodeInbound.localInboundId
  (h.managedClients.rows.filter fun r =>
    !r.2.deleted && (r.2.inbounds.getD []).any fun id => id ∈ assigned).map Prod.fst

/-- {lit}`_usage_event_id`; {lit}`digest` stands for the shortened hash. -/
def usageEventId (digest : String → String) (nodeId clientId : String) (seq : ℤ) : String :=
  "node:" ++ digest (nodeId ++ "\x00" ++ clientId) ++ ":" ++ toString seq

/-- {lit}`_recompute_client_usage`. -/
def recomputeClientUsage (clientId : String) : Tx Hub Failure Unit := do
  let managed ← Tx.read fun h => h.managedClients.get? clientId
  let remote ← Tx.read fun h => h.usage.total fun k r =>
    if k.2 = clientId then r.currentUp + r.currentDown else 0
  let total := managed.elim 0 (fun m => m.lastUp + m.lastDown) + remote
  Tx.when (managed ≠ none) do
    Tx.require (-maxInt ≤ remote ∧ remote ≤ maxInt) .integerOverflow
    demandPolicy (0 ≤ total ∧ total ≤ maxInt) "Global client traffic counter overflow"
    Tx.write fun h => { h with
      clients := h.clients.update clientId fun c => { c with usedBytes := total } }

/-! ## Reports -/

/-- An item of a traffic report; an absent field is {lit}`none`.  What is no
dictionary, or has another field, is malformed. -/
inductive TrafficItem where
  | malformed
  | item (sourceEmail up down : Value)
deriving DecidableEq, Repr

/-- The client that an item reports. -/
def TrafficItem.source : TrafficItem → Except Failure String
  | .malformed => .error (.policyError "Invalid node traffic item")
  | .item (.str email) _ _ => .ok email
  | .item _ _ _ => .error (.policyError "Invalid node traffic client")

/-- The counters of an item. -/
def TrafficItem.counters : TrafficItem → Except Failure (ℤ × ℤ)
  | .item _ (.int up) (.int down) =>
      if 0 ≤ up ∧ 0 ≤ down ∧ up ≤ maxInt ∧ down ≤ maxInt ∧ up + down ≤ maxInt then .ok (up, down)
      else .error (.policyError "Invalid node traffic counter")
  | _ => .error (.policyError "Invalid node traffic counter")

/-- What the loop over the items has seen and charged so far. -/
structure Progress where
  seen : List String
  ignored : ℕ
  baselined : ℕ
  counterResets : ℕ
  chargedUp : ℤ
  chargedDown : ℤ
  changed : List String
deriving DecidableEq, Repr

/-- The loop before its first item. -/
def Progress.start : Progress where
  seen := []
  ignored := 0
  baselined := 0
  counterResets := 0
  chargedUp := 0
  chargedDown := 0
  changed := []

/-- Bytes added since a counter was last read; a counter that went down has
started again from zero. -/
def counterDelta (reported raw : ℤ) : ℤ :=
  if raw ≤ reported then reported - raw else reported

/-- Write the ledger row of a difference. -/
def chargeLedger (digest : String → String) (nodeId email : String) (seq du dd : ℤ) :
    Tx Hub Failure Unit := do
  demandPolicy (du + dd ≤ maxInt) "Node traffic delta overflow"
  let user ← Tx.read fun h => h.clients.get? email
  let user ← Tx.demand user (.policyError "Node traffic client is not managed")
  let period ← Tx.read fun h => h.periods.get? user.owner
  let period ← Tx.demand period (.policyError "Node traffic owner is missing")
  let eventId := usageEventId digest nodeId email seq
  let old ← Tx.read fun h => h.trafficLedger.get? eventId
  Tx.require (old = none) .integrityError
  Tx.write fun h => { h with
    trafficLedger := h.trafficLedger.insert eventId ⟨user.owner, email, period, du, dd⟩ }

/-- Store a usage row. -/
def storeUsage (nodeId email : String) (row : UsageRow) : Tx Hub Failure Unit :=
  Tx.write fun h => { h with usage := h.usage.upsert (nodeId, email) row fun _ => row }

/-- Charge a report against the counters of an initialized usage row. -/
def chargeReading (digest : String → String) (nodeId email : String) (up down : ℤ)
    (row : UsageRow) : Tx Hub Failure Unit := do
  let du := counterDelta up row.rawUp
  let dd := counterDelta down row.rawDown
  let seq := if du ≠ 0 ∨ dd ≠ 0 then row.seq + 1 else row.seq
  Tx.when (du ≠ 0 ∨ dd ≠ 0) (chargeLedger digest nodeId email seq du dd)
  demandPolicy (row.currentUp + du + (row.currentDown + dd) ≤ maxInt)
    "Node current traffic overflow"
  storeUsage nodeId email
    { rawUp := up, rawDown := down, currentUp := row.currentUp + du
      currentDown := row.currentDown + dd, seq := seq, initialized := true }
  recomputeClientUsage email

/-- One report about one client: it becomes the baseline of a usage row that has
none, and is charged against the baseline otherwise. -/
def applyReading (digest : String → String) (nodeId email : String) (up down : ℤ)
    (p : Progress) : Tx Hub Failure Progress := do
  let p := { p with seen := email :: p.seen, changed := p.changed ++ [email] }
  let row ← Tx.read fun h => h.usage.get? (nodeId, email)
  match row with
  | none => do
      storeUsage nodeId email ⟨up, down, 0, 0, 0, true⟩
      recomputeClientUsage email
      return { p with baselined := p.baselined + 1 }
  | some row =>
      if row.initialized = false then do
        storeUsage nodeId email { row with rawUp := up, rawDown := down, initialized := true }
        recomputeClientUsage email
        return { p with baselined := p.baselined + 1 }
      else do
        chargeReading digest nodeId email up down row
        return { p with
          counterResets :=
            p.counterResets + if up < row.rawUp ∨ down < row.rawDown then 1 else 0
          chargedUp := p.chargedUp + counterDelta up row.rawUp
          chargedDown := p.chargedDown + counterDelta down row.rawDown }

/-- One round of the loop over the items. -/
def applyItem (digest : String → String) (nodeId : String) (allowed : List String)
    (p : Progress) (item : TrafficItem) : Tx Hub Failure Progress := do
  let email ← Tx.ofExcept item.source
  if email ∉ allowed then return { p with ignored := p.ignored + 1 }
  else do
    demandPolicy (email ∉ p.seen) "Duplicate node traffic client"
    let counters ← Tx.ofExcept item.counters
    applyReading digest nodeId email counters.1 counters.2 p

/-- The loop over the items. -/
def applyItems (digest : String → String) (nodeId : String) (allowed : List String) :
    List TrafficItem → Progress → Tx Hub Failure Progress
  | [], p => pure p
  | item :: items, p => do
      let p ← applyItem digest nodeId allowed p item
      applyItems digest nodeId allowed items p

/-- A complete report proves that an absent client has consumed nothing:
{lit}`INSERT OR IGNORE` of a zero baseline. -/
def seedAbsent (nodeId : String) (emails : List String) (initializeAbsent : Bool) :
    Tx Hub Failure ℕ :=
  if initializeAbsent = true then do
    let absent ← Tx.read fun h => emails.filter fun e => h.usage.get? (nodeId, e) = none
    Tx.write fun h => { h with
      usage := absent.foldl (fun u e => u.insert (nodeId, e) ⟨0, 0, 0, 0, 0, true⟩) h.usage }
    return absent.length
  else pure 0

/-- The result of an imported snapshot. -/
structure Snapshot where
  seededZeroBaselines : ℕ
  clients : ℕ
  ignoredClients : ℕ
  baselined : ℕ
  chargedUp : ℤ
  chargedDown : ℤ
  chargedBytes : ℤ
  counterResets : ℕ
  changedClients : List String
deriving DecidableEq, Repr

/-- {lit}`apply_traffic_snapshot`. -/
def applyTrafficSnapshot (digest : String → String) (nodeId : String) (items : List TrafficItem)
    (initializeAbsent : Bool) : Tx Hub Failure Snapshot := do
  demandPolicy (items.length ≤ 100000) "Invalid node traffic snapshot"
  let allowed ← Tx.read fun h => h.allowedTrafficClients nodeId
  Tx.transaction do
    let p ← applyItems digest nodeId allowed items .start
    let seeded ← seedAbsent nodeId (allowed.filter fun e => e ∉ p.seen) initializeAbsent
    return {
      seededZeroBaselines := seeded
      clients := p.seen.length
      ignoredClients := p.ignored
      baselined := p.baselined
      chargedUp := p.chargedUp
      chargedDown := p.chargedDown
      chargedBytes := p.chargedUp + p.chargedDown
      counterResets := p.counterResets
      changedClients := p.changed }

/-- The last transaction of {lit}`reset_client_traffic`: the Agent has zeroed its
counters, so the baseline and the running totals start again from zero. -/
def resetBaseline (nodeId email : String) : Tx Hub Failure Unit :=
  Tx.transaction do
    Tx.write fun h => { h with
      usage := h.usage.update (nodeId, email) fun r =>
        { r with rawUp := 0, rawDown := 0, currentUp := 0, currentDown := 0, initialized := true } }
    recomputeClientUsage email

/-! ## What a report does to one client -/

/-- Bytes in the ledger of a client. -/
def Hub.billed (h : Hub) (e : String) : ℤ :=
  h.trafficLedger.total fun _ r => if r.clientId = e then r.upBytes + r.downBytes else 0

/-- From {lit}`s` to {lit}`t` the client's usage row on the Node became {lit}`row`,
its ledger grew by {lit}`bytes`, and no assignment changed. -/
structure Metered (nodeId e : String) (s t : Hub) (row : Option UsageRow) (bytes : ℤ) : Prop where
  row : t.usage.get? (nodeId, e) = row
  billed : t.billed e = s.billed e + bytes
  inbounds : t.nodeInbounds = s.nodeInbounds
  managed : t.managedClients = s.managedClients

section Metering

variable {digest : String → String} {nodeId email e : String} {up down : ℤ} {s t u : Hub}

/-- Nothing happened to the client. -/
abbrev Unmetered (nodeId e : String) (s t : Hub) : Prop :=
  Metered nodeId e s t (s.usage.get? (nodeId, e)) 0

/-- No reading meters nothing. -/
theorem Metered.refl (nodeId e : String) (s : Hub) : Unmetered nodeId e s s :=
  ⟨rfl, (add_zero _).symm, rfl, rfl⟩

/-- Readings add up. -/
theorem Metered.trans {row row' : Option UsageRow} {bytes bytes' : ℤ}
    (hst : Metered nodeId e s t row bytes) (htu : Metered nodeId e t u row' bytes') :
    Metered nodeId e s u row' (bytes + bytes') := by
  refine ⟨htu.row, ?_, htu.inbounds.trans hst.inbounds, htu.managed.trans hst.managed⟩
  rw [htu.billed, hst.billed, add_assoc]

/-- A reading followed by others' readings. -/
theorem Metered.unmetered {row : Option UsageRow} {bytes : ℤ} (hst : Metered nodeId e s t row bytes)
    (htu : Unmetered nodeId e t u) : Metered nodeId e s u row bytes := by
  have h := Metered.trans hst htu
  rwa [add_zero, hst.row] at h

/-- Readings leave the clients that are allowed. -/
theorem Metered.allowed {row : Option UsageRow} {bytes : ℤ} (h : Metered nodeId e s t row bytes) :
    t.allowedTrafficClients nodeId = s.allowedTrafficClients nodeId := by
  simp only [Hub.allowedTrafficClients, h.inbounds, h.managed]

/-- Recomputing the usage of any client meters nothing. -/
theorem recomputeClientUsage_ok {r : Unit} (h : recomputeClientUsage email s = (.ok r, t)) :
    Unmetered nodeId e s t := by
  simp only [recomputeClientUsage, demandPolicy, Tx.read_bind, Tx.when_ok_iff,
    Tx.require_bind_iff, Tx.write_ok_iff] at h
  rcases h with ⟨_, _, _, rfl⟩ | ⟨_, rfl⟩
  · exact ⟨rfl, (add_zero _).symm, rfl, rfl⟩
  · exact .refl nodeId e s

/-- A row is stored and charges nothing. -/
theorem storeUsage_ok {row : UsageRow} {r : Unit}
    (h : storeUsage nodeId email row s = (.ok r, t)) :
    Metered nodeId email s t (some row) 0 ∧ (e ≠ email → Unmetered nodeId e s t) := by
  rw [storeUsage, Tx.write_ok_iff] at h
  subst h
  have hget : ∀ k, (s.usage.upsert (nodeId, email) row fun _ => row).get? k =
      if k = (nodeId, email) then some row else s.usage.get? k := by
    intro k
    rw [Table.get?_upsert]
    cases s.usage.get? (nodeId, email) <;> rfl
  constructor
  · refine ⟨?_, (add_zero _).symm, rfl, rfl⟩
    rw [hget, if_pos rfl]
  · intro hne
    refine ⟨?_, (add_zero _).symm, rfl, rfl⟩
    rw [hget, if_neg (by simpa using hne)]

/-- The ledger row of a difference belongs to its client. -/
theorem chargeLedger_ok {seq du dd : ℤ} {r : Unit}
    (h : chargeLedger digest nodeId email seq du dd s = (.ok r, t)) :
    Metered nodeId email s t (s.usage.get? (nodeId, email)) (du + dd) ∧
      (e ≠ email → Unmetered nodeId e s t) := by
  simp only [chargeLedger, demandPolicy, Tx.read_bind, Tx.require_bind_iff, Tx.demand_bind_iff,
    Tx.write_ok_iff] at h
  rcases h with ⟨_, user, _, period, _, hnew, rfl⟩
  constructor
  · refine ⟨rfl, ?_, rfl, rfl⟩
    simp only [Hub.billed, Table.total_insert hnew, if_true]
  · intro hne
    refine ⟨rfl, ?_, rfl, rfl⟩
    simp only [Hub.billed, Table.total_insert hnew, if_neg (Ne.symm hne)]

/-- A reading is stored and charged. -/
theorem chargeReading_ok {row : UsageRow} {r : Unit}
    (h : chargeReading digest nodeId email up down row s = (.ok r, t)) :
    (∃ row', row'.rawUp = up ∧ row'.rawDown = down ∧ row'.initialized = true ∧
      Metered nodeId email s t (some row')
        (counterDelta up row.rawUp + counterDelta down row.rawDown)) ∧
      (e ≠ email → Unmetered nodeId e s t) := by
  simp only [chargeReading, demandPolicy] at h
  rcases Tx.bind_ok_iff.mp h with ⟨_, a, hcharge, h⟩
  rw [Tx.require_bind_iff] at h
  rcases h with ⟨_, h⟩
  rcases Tx.bind_ok_iff.mp h with ⟨_, b, hstore, hrecompute⟩
  have hledger : Metered nodeId email s a (s.usage.get? (nodeId, email))
      (counterDelta up row.rawUp + counterDelta down row.rawDown) ∧
        (e ≠ email → Unmetered nodeId e s a) := by
    rcases Tx.when_ok_iff.mp hcharge with ⟨_, hcharge⟩ | ⟨hzero, rfl⟩
    · exact chargeLedger_ok hcharge
    · rw [not_or, not_not, not_not] at hzero
      rw [hzero.1, hzero.2]
      exact ⟨.refl nodeId email s, fun _ => .refl nodeId e s⟩
  have hstore := storeUsage_ok (e := e) hstore
  constructor
  · have hstored := hledger.1.trans hstore.1
    rw [add_zero] at hstored
    refine ⟨_, ?_, ?_, ?_, hstored.unmetered (recomputeClientUsage_ok hrecompute)⟩
    · rfl
    · rfl
    · rfl
  · intro hne
    have hstored := (hledger.2 hne).unmetered (hstore.2 hne)
    exact hstored.unmetered (recomputeClientUsage_ok hrecompute)

/-- A report about one client leaves every other client alone. -/
theorem applyReading_other {p q : Progress} (hne : e ≠ email)
    (h : applyReading digest nodeId email up down p s = (.ok q, t)) : Unmetered nodeId e s t := by
  simp only [applyReading, Tx.read_bind] at h
  cases hrow : s.usage.get? (nodeId, email) with
  | none =>
      simp only [hrow, Tx.bind_ok_iff, Tx.pure_ok_iff] at h
      rcases h with ⟨_, a, hstore, _, b, hrecompute, _, rfl⟩
      exact ((storeUsage_ok hstore).2 hne).unmetered (recomputeClientUsage_ok hrecompute)
  | some row =>
      simp only [hrow, Tx.ite_ok_iff, Tx.bind_ok_iff, Tx.pure_ok_iff] at h
      rcases h with ⟨_, _, a, hstore, _, b, hrecompute, _, rfl⟩ | ⟨_, _, a, hcharge, _, rfl⟩
      · exact ((storeUsage_ok hstore).2 hne).unmetered (recomputeClientUsage_ok hrecompute)
      · exact (chargeReading_ok hcharge).2 hne

/-- A report about a client with a baseline charges the difference and becomes the
new baseline. -/
theorem applyReading_self {p q : Progress} {row : UsageRow}
    (hrow : s.usage.get? (nodeId, e) = some row) (hinit : row.initialized = true)
    (h : applyReading digest nodeId e up down p s = (.ok q, t)) :
    ∃ row', row'.rawUp = up ∧ row'.rawDown = down ∧ row'.initialized = true ∧
      Metered nodeId e s t (some row')
        (counterDelta up row.rawUp + counterDelta down row.rawDown) := by
  simp only [applyReading, Tx.read_bind, hrow, hinit, Tx.ite_ok_iff, Tx.bind_ok_iff,
    Tx.pure_ok_iff] at h
  rcases h with ⟨hfalse, _⟩ | ⟨_, _, a, hcharge, _, rfl⟩
  · exact absurd hfalse (by decide)
  · exact (chargeReading_ok (e := e) hcharge).1

/-! ## Whole snapshots -/

/-- What one item of a report does. -/
theorem applyItem_ok {allowed : List String} {p q : Progress} {item : TrafficItem}
    (h : applyItem digest nodeId allowed p item s = (.ok q, t)) :
    ∃ email, item.source = .ok email ∧
      ((email ∉ allowed ∧ t = s) ∨
        (email ∈ allowed ∧ ∃ up down, item.counters = .ok (up, down) ∧
          applyReading digest nodeId email up down p s = (.ok q, t))) := by
  simp only [applyItem, demandPolicy, Tx.ofExcept_bind_iff, Tx.ite_ok_iff, Tx.require_bind_iff,
    Tx.pure_ok_iff] at h
  rcases h with ⟨email, hsource, ⟨hignored, _, rfl⟩ | ⟨hallowed, _, ⟨up, down⟩, hcounters, h⟩⟩
  · exact ⟨email, hsource, .inl ⟨hignored, rfl⟩⟩
  · exact ⟨email, hsource, .inr ⟨not_not.mp hallowed, up, down, hcounters, h⟩⟩

/-- Items about other clients leave a client alone. -/
theorem applyItems_other {allowed : List String} {items : List TrafficItem} :
    ∀ {p q : Progress} {s t : Hub}, (∀ i ∈ items, i.source ≠ .ok e) →
      applyItems digest nodeId allowed items p s = (.ok q, t) → Unmetered nodeId e s t := by
  induction items with
  | nil =>
      intro p q s t _ h
      rw [applyItems, Tx.pure_ok_iff] at h
      rcases h with ⟨_, rfl⟩
      exact .refl nodeId e s
  | cons item items ih =>
      intro p q s t hothers h
      rw [applyItems, Tx.bind_ok_iff] at h
      rcases h with ⟨p', u, hitem, hrest⟩
      have htail := ih (fun i hi => hothers i (List.mem_cons_of_mem _ hi)) hrest
      rcases applyItem_ok hitem with ⟨email, hsource, ⟨_, rfl⟩ | ⟨_, up, down, _, hreading⟩⟩
      · exact htail
      · have hne : e ≠ email := by
          rintro rfl
          exact hothers item List.mem_cons_self hsource
        exact (applyReading_other hne hreading).unmetered htail

/-- Items are applied one after the other. -/
theorem applyItems_append {allowed : List String} {items more : List TrafficItem} :
    ∀ {p q : Progress} {s t : Hub},
      applyItems digest nodeId allowed (items ++ more) p s = (.ok q, t) →
        ∃ p' u, applyItems digest nodeId allowed items p s = (.ok p', u) ∧
          applyItems digest nodeId allowed more p' u = (.ok q, t) := by
  induction items with
  | nil =>
      intro p q s t h
      exact ⟨p, s, rfl, h⟩
  | cons item items ih =>
      intro p q s t h
      rw [List.cons_append, applyItems, Tx.bind_ok_iff] at h
      rcases h with ⟨p', u, hitem, hrest⟩
      rcases ih hrest with ⟨p'', v, hitems, hmore⟩
      refine ⟨p'', v, ?_, hmore⟩
      rw [applyItems, Tx.bind_ok_iff]
      exact ⟨p', u, hitem, hitems⟩

/-- Seeding absent clients leaves a client with a usage row alone. -/
theorem seedAbsent_ok {emails : List String} {initializeAbsent : Bool} {row : UsageRow} {n : ℕ}
    (hrow : s.usage.get? (nodeId, e) = some row)
    (h : seedAbsent nodeId emails initializeAbsent s = (.ok n, t)) : Unmetered nodeId e s t := by
  simp only [seedAbsent, Tx.ite_ok_iff, Tx.read_bind, Tx.write_bind, Tx.pure_ok_iff] at h
  rcases h with ⟨_, _, rfl⟩ | ⟨_, _, rfl⟩
  case inr => exact .refl nodeId e s
  refine ⟨?_, (add_zero _).symm, rfl, rfl⟩
  dsimp only
  generalize emails.filter _ = absent
  generalize s.usage = usage at hrow ⊢
  induction absent generalizing usage with
  | nil => rfl
  | cons a absent ih =>
      have hinsert : (usage.insert (nodeId, a) ⟨0, 0, 0, 0, 0, true⟩).get? (nodeId, e) =
          usage.get? (nodeId, e) := by
        rw [Table.get?_insert_of_some hrow, hrow]
      rw [List.foldl_cons, ih _ (hinsert.trans hrow), hinsert]

/-- A snapshot that reports a client once charges that report, unless the client is
not served by the Node. -/
theorem applyTrafficSnapshot_single {before after : List TrafficItem} {initializeAbsent : Bool}
    {row : UsageRow} {r : Snapshot} (hbefore : ∀ i ∈ before, i.source ≠ .ok e)
    (hafter : ∀ i ∈ after, i.source ≠ .ok e) (hrow : s.usage.get? (nodeId, e) = some row)
    (hinit : row.initialized = true)
    (h : applyTrafficSnapshot digest nodeId
      (before ++ .item (.str e) (.int up) (.int down) :: after) initializeAbsent s = (.ok r, t)) :
    (e ∉ s.allowedTrafficClients nodeId ∧ Unmetered nodeId e s t) ∨
      (e ∈ s.allowedTrafficClients nodeId ∧
        ∃ row', row'.rawUp = up ∧ row'.rawDown = down ∧ row'.initialized = true ∧
          Metered nodeId e s t (some row')
            (counterDelta up row.rawUp + counterDelta down row.rawDown)) := by
  simp only [applyTrafficSnapshot, demandPolicy, Tx.require_bind_iff, Tx.read_bind,
    Tx.transaction_ok_iff] at h
  rcases Tx.bind_ok_iff.mp h.2 with ⟨p, u, hitems, h⟩
  rcases Tx.bind_ok_iff.mp h with ⟨n, v, hseed, hreturn⟩
  rcases Tx.pure_ok_iff.mp hreturn with ⟨_, rfl⟩
  rcases applyItems_append hitems with ⟨p₁, s₁, hfirst, hrest⟩
  rw [applyItems, Tx.bind_ok_iff] at hrest
  rcases hrest with ⟨p₂, s₂, hitem, hlast⟩
  have hpre := applyItems_other hbefore hfirst
  have hpost := applyItems_other hafter hlast
  have hrow₁ : s₁.usage.get? (nodeId, e) = some row := hpre.row.trans hrow
  rcases applyItem_ok hitem with ⟨email, hsource, ⟨hignored, rfl⟩ | ⟨hallowed, a, b, hcounters, hread⟩⟩
  · cases hsource
    have hall := hpre.unmetered hpost
    exact .inl ⟨hignored, hall.unmetered (seedAbsent_ok (hall.row.trans hrow) hseed)⟩
  · cases hsource
    obtain ⟨rfl, rfl⟩ : up = a ∧ down = b := by
      simp only [TrafficItem.counters] at hcounters
      split at hcounters
      · simpa using hcounters
      · cases hcounters
    rcases applyReading_self hrow₁ hinit hread with ⟨row', hup, hdown, hinit', hself⟩
    have hall := (hpre.trans hself).unmetered hpost
    rw [zero_add] at hall
    exact .inr ⟨hallowed, row', hup, hdown, hinit', hall.unmetered (seedAbsent_ok hall.row hseed)⟩

/-- The second half of a reset zeroes the baseline and charges nothing. -/
theorem resetBaseline_ok {row : UsageRow} {r : Unit} (hrow : s.usage.get? (nodeId, e) = some row)
    (h : resetBaseline nodeId e s = (.ok r, t)) :
    ∃ row', row'.rawUp = 0 ∧ row'.rawDown = 0 ∧ row'.initialized = true ∧
      Metered nodeId e s t (some row') 0 := by
  simp only [resetBaseline, Tx.transaction_ok_iff, Tx.write_bind] at h
  have hwrite : Metered nodeId e s { s with
      usage := s.usage.update (nodeId, e) fun r =>
        { r with rawUp := 0, rawDown := 0, currentUp := 0, currentDown := 0, initialized := true } }
      (some { row with
        rawUp := 0, rawDown := 0, currentUp := 0, currentDown := 0, initialized := true }) 0 := by
    refine ⟨?_, (add_zero _).symm, rfl, rfl⟩
    rw [Table.get?_update, if_pos rfl, hrow]
    rfl
  refine ⟨_, ?_, ?_, ?_, hwrite.unmetered (recomputeClientUsage_ok h)⟩
  · rfl
  · rfl
  · rfl

/-- A report is applied as a whole or not at all. -/
theorem applyTrafficSnapshot_atomic (items : List TrafficItem) (initializeAbsent : Bool) :
    Tx.Atomic (applyTrafficSnapshot digest nodeId items initializeAbsent) :=
  Tx.Atomic.bind (readOnly_demandPolicy _ _) fun _ =>
    Tx.Atomic.bind (fun _ => rfl) fun _ => Tx.Atomic.transaction _

end Metering

end Nodes
end DarkXray
