import DarkXray.Nodes.Traffic

/-!
# Accounting the imported users of a Node

Users that were imported from another panel have a ledger of their own.  The observer around
{lit}`apply_traffic_snapshot` gives every report to it after the native import, and an
accounting lease is granted only if the two ledgers have taken up all that was reported.

Main results:

- Theorem {lit}`applyItems_ignored`: the native import ignores what is not managed on the Node.
- Theorem {lit}`recordItems_counted`: the observer counts at most the live users of the Node,
  and all of them where no later sample is stored.
- Theorem {lit}`requireAccountedSnapshot_ok_iff`: what has been taken up when a report is
  accepted.
- Theorem {lit}`accounted_iff`: the reports that are accepted.
-/

namespace DarkXray
namespace Nodes

open Library Policy

/-! ## Tables -/

/-- The columns of {lit}`restore_subscriptions` that accounting and promotion use. -/
structure RestoreRow where
  coreEmail : String
  inboundIds : List ℤ
  legacyUpload : ℤ
  legacyDownload : ℤ
  legacyTotal : ℤ
  promotedOwner : String
  promotedAt : ℕ
  deletedAt : ℕ
deriving DecidableEq, Repr

/-- The user is neither promoted nor archived. -/
def RestoreRow.live (r : RestoreRow) : Bool :=
  r.promotedAt = 0 && r.deletedAt = 0

/-- A row of {lit}`restore_usage`. -/
structure RestoreUsageRow where
  up : ℤ
  down : ℤ
  rawUp : ℤ
  rawDown : ℤ
  updatedAt : ℕ
  activityAt : ℕ
deriving DecidableEq, Repr

/-- The usage of a user is kept by scope: the Hub is {lit}`local`. -/
abbrev RestoreUsage : Type :=
  Table (String × String) RestoreUsageRow

/-- {lit}`restore_subscriptions` and {lit}`restore_usage`. -/
structure RestoreTables where
  subscriptions : Table String RestoreRow
  usage : RestoreUsage

/-- The tables of both ledgers. -/
structure Ledgers where
  hub : Hub
  restore : RestoreTables

/-- The local numbers of the inbounds that are assigned to a Node. -/
def Hub.assigned (h : Hub) (nodeId : String) : List ℤ :=
  (h.nodeInbounds.filter fun r => r.nodeId = nodeId).map NodeInbound.localInboundId

/-- {lit}`restored`: the users that a Node can report, by their core email. -/
def Ledgers.restored (l : Ledgers) (nodeId : String) : List (String × String) :=
  (l.restore.subscriptions.rows.filter fun r =>
    r.2.live && r.2.inboundIds.any fun id => id ∈ l.hub.assigned nodeId).map
      fun r => (r.2.coreEmail, r.1)

/-- {lit}`restored_ids`: the core emails of all users, promoted and archived ones included. -/
def RestoreTables.coreEmails (t : RestoreTables) : List String :=
  t.subscriptions.rows.map fun r => r.2.coreEmail

/-! ## The observer -/

/-- What the loop over the items has seen and counted. -/
structure Recorded where
  seen : List String
  counted : ℕ
deriving DecidableEq, Repr

/-- The counters of an item. -/
def TrafficItem.restoreCounters (item : TrafficItem) : Except Failure (ℤ × ℤ) :=
  match item.counters with
  | .ok counters => .ok counters
  | .error _ => .error (.policyError "Invalid Restore Node traffic snapshot")

/-- The user that an item reports. -/
def TrafficItem.restoredAs (item : TrafficItem) (restored : List (String × String)) :
    Option (String × String) :=
  item.source.toOption.bind fun email => restored.find? fun r => r.1 = email

/-- The usage row after a sample. -/
def sampled (old : Option RestoreUsageRow) (now : ℕ) (up down : ℤ) : RestoreUsageRow :=
  let du := old.elim up fun r => counterDelta up r.rawUp
  let dd := old.elim down fun r => counterDelta down r.rawDown
  { up := old.elim 0 RestoreUsageRow.up + du
    down := old.elim 0 RestoreUsageRow.down + dd
    rawUp := up
    rawDown := down
    updatedAt := now
    activityAt := if 0 < du + dd then now else old.elim 0 RestoreUsageRow.activityAt }

/-- One round of the loop over the items. -/
def recordItem (nodeId : String) (now : ℕ) (restored : List (String × String)) (p : Recorded)
    (item : TrafficItem) : Tx RestoreUsage Failure Recorded :=
  match item.restoredAs restored with
  | none => pure p
  | some user => do
      demandPolicy (user.1 ∉ p.seen) "Invalid Restore Node traffic snapshot"
      let counters ← Tx.ofExcept item.restoreCounters
      let p := { p with seen := user.1 :: p.seen }
      let old ← Tx.read fun u => u.get? (user.2, "node:" ++ nodeId)
      -- a sample from before the stored one is skipped, and not counted either
      if (old.any fun row => decide (now < row.updatedAt)) = true then return p
      else do
        let row := sampled old now counters.1 counters.2
        demandPolicy (row.up + row.down ≤ maxInt) "Restore traffic counter overflow"
        Tx.write fun u => u.upsert (user.2, "node:" ++ nodeId) row fun _ => row
        return { p with counted := p.counted + 1 }

/-- The loop over the items. -/
def recordItems (nodeId : String) (now : ℕ) (restored : List (String × String)) :
    List TrafficItem → Recorded → Tx RestoreUsage Failure Recorded
  | [], p => pure p
  | item :: items, p => do
      let p ← recordItem nodeId now restored p item
      recordItems nodeId now restored items p

/-- {lit}`record_node_usage`: the number of users that were counted. -/
def recordNodeUsage (nodeId : String) (items : List TrafficItem) (now : ℕ) :
    Tx Ledgers Failure ℕ :=
  Tx.transaction do
    let restored ← Tx.read fun l => l.restored nodeId
    let p ← Tx.within (fun l => l.restore.usage)
      (fun u l => { l with restore := { l.restore with usage := u } })
      (recordItems nodeId now restored items ⟨[], 0⟩)
    return p.counted

/-- {lit}`observed`: the native import, and after it the one for the imported users. -/
def observed (digest : String → String) (nodeId : String) (items : List TrafficItem) (now : ℕ)
    (initializeAbsent : Bool) : Tx Ledgers Failure (Snapshot × ℕ) := do
  let result ← Tx.within Ledgers.hub (fun h l => { l with hub := h })
    (applyTrafficSnapshot digest nodeId items initializeAbsent)
  let counted ← recordNodeUsage nodeId items now
  return (result, counted)

/-- {lit}`require_accounted_snapshot` for the outcome of an import. -/
def requireAccountedSnapshot (nodeId : String) (traffic : Snapshot × ℕ) :
    Tx Ledgers Failure Unit := do
  demandPolicy (traffic.1.ignoredClients = traffic.2)
    "Accounting lease refused: Node reports unmanaged traffic identities"
  Tx.when (traffic.2 ≠ 0) do
    let native ← Tx.read fun l => l.hub.allowedTrafficClients nodeId
    let restoredIds ← Tx.read fun l => l.restore.coreEmails
    demandPolicy (∀ e ∈ native, e ∉ restoredIds)
      "Accounting lease refused: ambiguous native/Restore traffic identity"

/-! ## Counting -/

/-- The clients that a report names, as often as it names them. -/
def reportedEmails (items : List TrafficItem) : List String :=
  items.filterMap fun item => item.source.toOption

/-- An item that names an email reports it. -/
theorem reportedEmails_cons_ok {item : TrafficItem} {e : String} (h : item.source = .ok e)
    (items : List TrafficItem) : reportedEmails (item :: items) = e :: reportedEmails items := by
  simp [reportedEmails, h, Except.toOption]

/-- Two counts are equal exactly if the larger condition never holds alone. -/
theorem countP_eq_iff_of_imp {α : Type} {p q : α → Bool} {l : List α}
    (hpq : ∀ a ∈ l, p a = true → q a = true) :
    l.countP p = l.countP q ↔ ∀ a ∈ l, q a = true → p a = true := by
  induction l with
  | nil => simp
  | cons a l ih =>
      have htail := ih fun b hb => hpq b (List.mem_cons_of_mem a hb)
      have hle : l.countP p ≤ l.countP q :=
        List.countP_mono_left fun b hb => hpq b (List.mem_cons_of_mem a hb)
      have hhead := hpq a List.mem_cons_self
      rw [List.forall_mem_cons, ← htail, List.countP_cons, List.countP_cons]
      by_cases hp : p a = true
      · simp [hp, hhead hp]
      · by_cases hq : q a = true
        · simp [hp, hq]
          omega
        · simp [hp, hq]

section Import

variable {digest : String → String} {nodeId : String}

/-- A reading leaves the number of ignored clients alone. -/
theorem applyReading_ignored {email : String} {up down : ℤ} {p q : Progress} {s t : Hub}
    (h : applyReading digest nodeId email up down p s = (.ok q, t)) : q.ignored = p.ignored := by
  simp only [applyReading, Tx.read_bind] at h
  cases hrow : s.usage.get? (nodeId, email) with
  | none =>
      simp only [hrow, Tx.bind_ok_iff, Tx.pure_ok_iff] at h
      rcases h with ⟨_, _, _, _, _, _, rfl, _⟩
      rfl
  | some row =>
      simp only [hrow, Tx.ite_ok_iff, Tx.bind_ok_iff, Tx.pure_ok_iff] at h
      rcases h with ⟨_, _, _, _, _, _, _, rfl, _⟩ | ⟨_, _, _, _, rfl, _⟩
      · rfl
      · rfl

/-- The import ignores what is not managed on the Node. -/
theorem applyItems_ignored {allowed : List String} {items : List TrafficItem} :
    ∀ {p q : Progress} {s t : Hub},
      applyItems digest nodeId allowed items p s = (.ok q, t) →
        q.ignored = p.ignored + (reportedEmails items).countP fun e => e ∉ allowed := by
  induction items with
  | nil =>
      intro p q s t h
      rw [applyItems, Tx.pure_ok_iff] at h
      simp [h.1, reportedEmails]
  | cons item items ih =>
      intro p q s t h
      rw [applyItems, Tx.bind_ok_iff] at h
      rcases h with ⟨p', u, hitem, hrest⟩
      have hrest := ih hrest
      simp only [applyItem, demandPolicy, Tx.ofExcept_bind_iff, Tx.ite_ok_iff, Tx.require_bind_iff,
        Tx.pure_ok_iff] at hitem
      rcases hitem with ⟨e, hsource, ⟨hignored, rfl, _⟩ | ⟨hallowed, _, counters, _, hread⟩⟩
      · rw [reportedEmails_cons_ok hsource, List.countP_cons_of_pos (by simpa using hignored), hrest]
        dsimp only
        omega
      · rw [reportedEmails_cons_ok hsource, List.countP_cons_of_neg (by simpa using hallowed), hrest,
          applyReading_ignored hread]

/-- All items of a report that was imported name a client. -/
theorem applyItems_sources {allowed : List String} {items : List TrafficItem} :
    ∀ {p q : Progress} {s t : Hub},
      applyItems digest nodeId allowed items p s = (.ok q, t) →
        ∀ item ∈ items, ∃ e, item.source = .ok e := by
  induction items with
  | nil =>
      intro p q s t _ item hitem
      cases hitem
  | cons item items ih =>
      intro p q s t h
      rw [applyItems, Tx.bind_ok_iff] at h
      rcases h with ⟨p', u, hitem, hrest⟩
      rcases applyItem_ok hitem with ⟨e, hsource, _⟩
      rw [List.forall_mem_cons]
      exact ⟨⟨e, hsource⟩, ih hrest⟩

/-- An import changes no assignment. -/
theorem applyItems_inbounds {allowed : List String} {items : List TrafficItem} :
    ∀ {p q : Progress} {s t : Hub},
      applyItems digest nodeId allowed items p s = (.ok q, t) →
        t.nodeInbounds = s.nodeInbounds ∧ t.managedClients = s.managedClients := by
  induction items with
  | nil =>
      intro p q s t h
      rw [applyItems, Tx.pure_ok_iff] at h
      rw [h.2]
      exact ⟨rfl, rfl⟩
  | cons item items ih =>
      intro p q s t h
      rw [applyItems, Tx.bind_ok_iff] at h
      rcases h with ⟨p', u, hitem, hrest⟩
      have hrest := ih hrest
      rcases applyItem_ok hitem with ⟨e, _, ⟨_, rfl⟩ | ⟨_, up, down, _, hread⟩⟩
      · exact hrest
      · have hother := applyReading_other (e := e ++ "x") (by simp [String.ext_iff]) hread
        exact ⟨hrest.1.trans hother.inbounds, hrest.2.trans hother.managed⟩

/-- Seeding absent clients leaves the assignments alone. -/
theorem seedAbsent_inbounds {emails : List String} {initializeAbsent : Bool} {s t : Hub} {n : ℕ}
    (h : seedAbsent nodeId emails initializeAbsent s = (.ok n, t)) :
    t.nodeInbounds = s.nodeInbounds ∧ t.managedClients = s.managedClients := by
  simp only [seedAbsent, Tx.ite_ok_iff, Tx.read_bind, Tx.write_bind, Tx.pure_ok_iff] at h
  rcases h with ⟨_, _, rfl⟩ | ⟨_, _, rfl⟩
  · exact ⟨rfl, rfl⟩
  · exact ⟨rfl, rfl⟩

/-- What a whole import has ignored. -/
theorem applyTrafficSnapshot_ignored {items : List TrafficItem} {initializeAbsent : Bool}
    {s t : Hub} {r : Snapshot}
    (h : applyTrafficSnapshot digest nodeId items initializeAbsent s = (.ok r, t)) :
    r.ignoredClients =
        (reportedEmails items).countP (fun e => e ∉ s.allowedTrafficClients nodeId) ∧
      t.nodeInbounds = s.nodeInbounds ∧ t.managedClients = s.managedClients := by
  simp only [applyTrafficSnapshot, demandPolicy, Tx.require_bind_iff, Tx.read_bind,
    Tx.transaction_ok_iff] at h
  rcases Tx.bind_ok_iff.mp h.2 with ⟨p, u, hitems, h⟩
  rcases Tx.bind_ok_iff.mp h with ⟨n, v, hseed, hreturn⟩
  rcases Tx.pure_ok_iff.mp hreturn with ⟨rfl, rfl⟩
  have hignored := applyItems_ignored hitems
  have hinbounds := applyItems_inbounds hitems
  have hseeded := seedAbsent_inbounds hseed
  refine ⟨?_, hseeded.1.trans hinbounds.1, hseeded.2.trans hinbounds.2⟩
  rw [hignored, Progress.start, Nat.zero_add]

end Import

section Observer

variable {nodeId : String} {now : ℕ} {restored : List (String × String)}

/-- No stored sample of a Node is later than a time. -/
def Latest (nodeId : String) (now : ℕ) (u : RestoreUsage) : Prop :=
  ∀ id row, u.get? (id, "node:" ++ nodeId) = some row → row.updatedAt ≤ now

/-- An item is one of a restored user if it names its email. -/
theorem restoredAs_isSome {item : TrafficItem} {e : String} (hsource : item.source = .ok e) :
    (item.restoredAs restored).isSome = true ↔ e ∈ restored.map Prod.fst := by
  simp [TrafficItem.restoredAs, hsource, Except.toOption, List.find?_isSome]

/-- What one item does to the ledger of the imported users. -/
theorem recordItem_cases {p q : Recorded} {item : TrafficItem} {u v : RestoreUsage}
    (h : recordItem nodeId now restored p item u = (.ok q, v)) :
    ((item.restoredAs restored).isSome = false ∧ q = p ∧ v = u) ∨
      ((item.restoredAs restored).isSome = true ∧
        ((q.counted = p.counted ∧ v = u ∧ ¬ Latest nodeId now u) ∨
          (q.counted = p.counted + 1 ∧ (Latest nodeId now u → Latest nodeId now v)))) := by
  unfold recordItem at h
  cases huser : item.restoredAs restored with
  | none =>
      simp only [huser, Tx.pure_ok_iff] at h
      exact .inl ⟨rfl, h.1.symm, h.2.symm⟩
  | some user =>
      right
      simp only [huser, demandPolicy, Tx.require_bind_iff, Tx.ofExcept_bind_iff, Tx.read_bind,
        Tx.ite_ok_iff, Tx.write_bind, Tx.pure_ok_iff] at h
      obtain ⟨_, counters, _, ⟨hlater, rfl, rfl⟩ | ⟨_, _, rfl, rfl⟩⟩ := h
      · have hlater : ∃ row, u.get? (user.2, "node:" ++ nodeId) = some row ∧ now < row.updatedAt := by
          cases hold : u.get? (user.2, "node:" ++ nodeId) with
          | none => simp [hold] at hlater
          | some row => exact ⟨row, rfl, by simpa [hold] using hlater⟩
        obtain ⟨row, hrow, hlt⟩ := hlater
        exact ⟨rfl, .inl ⟨rfl, rfl, fun hlatest => absurd (hlatest _ _ hrow) (by omega)⟩⟩
      · refine ⟨rfl, .inr ⟨rfl, fun hlatest id row hrow => ?_⟩⟩
        rw [Table.get?_upsert] at hrow
        by_cases hid : (id, "node:" ++ nodeId) = (user.2, "node:" ++ nodeId)
        · rw [if_pos hid] at hrow
          cases hold : u.get? (user.2, "node:" ++ nodeId) with
          | none =>
              rw [hold] at hrow
              cases hrow
              exact le_refl now
          | some old =>
              rw [hold] at hrow
              cases hrow
              exact le_refl now
        · rw [if_neg hid] at hrow
          exact hlatest id row hrow

/-- The observer counts at most the live users of the Node, and all of them where no later
sample is stored. -/
theorem recordItems_counted {items : List TrafficItem} :
    ∀ {p q : Recorded} {u v : RestoreUsage}, (∀ item ∈ items, ∃ e, item.source = .ok e) →
      recordItems nodeId now restored items p u = (.ok q, v) →
        q.counted ≤ p.counted + (reportedEmails items).countP (· ∈ restored.map Prod.fst) ∧
          (Latest nodeId now u →
            q.counted = p.counted +
              (reportedEmails items).countP (· ∈ restored.map Prod.fst)) := by
  induction items with
  | nil =>
      intro p q u v _ h
      rw [recordItems, Tx.pure_ok_iff] at h
      simp [h.1, reportedEmails]
  | cons item items ih =>
      intro p q u v hsources h
      rw [recordItems, Tx.bind_ok_iff] at h
      rcases h with ⟨p', w, hitem, hrest⟩
      rw [List.forall_mem_cons] at hsources
      obtain ⟨⟨e, hsource⟩, hsources⟩ := hsources
      have hiff : (item.restoredAs restored).isSome = true ↔ e ∈ restored.map Prod.fst :=
        restoredAs_isSome hsource
      obtain ⟨hle, heq⟩ := ih hsources hrest
      rw [reportedEmails_cons_ok hsource, List.countP_cons]
      rcases recordItem_cases hitem with ⟨hnone, rfl, rfl⟩ | ⟨hsome, hcounted⟩
      · rw [if_neg (by simpa using fun h => Bool.false_ne_true (hnone.symm.trans (hiff.mpr h)))]
        exact ⟨hle, heq⟩
      · rw [if_pos (by simpa using hiff.mp hsome)]
        rcases hcounted with ⟨hsame, rfl, hlater⟩ | ⟨hone, hlatest⟩
        · exact ⟨by omega, fun h => absurd h hlater⟩
        · constructor
          · omega
          · intro h
            have := heq (hlatest h)
            omega

/-- What a whole import has counted. -/
theorem recordNodeUsage_counted {items : List TrafficItem} {l m : Ledgers} {n : ℕ}
    (hsources : ∀ item ∈ items, ∃ e, item.source = .ok e)
    (h : recordNodeUsage nodeId items now l = (.ok n, m)) :
    n ≤ (reportedEmails items).countP (· ∈ (l.restored nodeId).map Prod.fst) ∧
      (Latest nodeId now l.restore.usage →
        n = (reportedEmails items).countP (· ∈ (l.restored nodeId).map Prod.fst)) ∧
      m.hub = l.hub ∧ m.restore.subscriptions = l.restore.subscriptions := by
  simp only [recordNodeUsage, Tx.transaction_ok_iff, Tx.read_bind] at h
  rcases Tx.bind_ok_iff.mp h with ⟨p, k, hitems, hreturn⟩
  rcases Tx.pure_ok_iff.mp hreturn with ⟨rfl, rfl⟩
  rcases Tx.within_ok_iff.mp hitems with ⟨u, hloop, rfl⟩
  obtain ⟨hle, heq⟩ := recordItems_counted hsources hloop
  refine ⟨by simpa using hle, fun hlatest => by simpa using heq hlatest, rfl, rfl⟩

end Observer

/-! ## Accepted reports -/

section Accepted

variable {digest : String → String} {nodeId : String} {items : List TrafficItem} {now : ℕ}
  {initializeAbsent : Bool} {l m : Ledgers} {traffic : Snapshot × ℕ}

/-- A client of the Node whose bytes one of the ledgers takes up. -/
def Ledgers.Accountable (l : Ledgers) (nodeId e : String) : Prop :=
  e ∈ l.hub.allowedTrafficClients nodeId ∨ e ∈ (l.restored nodeId).map Prod.fst

/-- No managed client of the Node has the name of an imported user. -/
def Ledgers.Apart (l : Ledgers) (nodeId : String) : Prop :=
  ∀ e ∈ l.hub.allowedTrafficClients nodeId, e ∉ l.restore.coreEmails

/-- A restored user of a Node is a restored user of the Hub. -/
theorem Ledgers.restored_subset {e : String} (h : e ∈ (l.restored nodeId).map Prod.fst) :
    e ∈ l.restore.coreEmails := by
  simp only [Ledgers.restored, List.map_map, List.mem_map, List.mem_filter] at h
  obtain ⟨r, ⟨hr, _⟩, rfl⟩ := h
  exact List.mem_map_of_mem hr

theorem requireAccountedSnapshot_ok_iff {u : Unit} :
    requireAccountedSnapshot nodeId traffic m = (.ok u, m) ↔
      traffic.1.ignoredClients = traffic.2 ∧ (traffic.2 ≠ 0 → m.Apart nodeId) := by
  simp only [requireAccountedSnapshot, demandPolicy, Tx.require_bind_iff, Tx.when_ok_iff,
    Tx.read_bind, Tx.require_ok_iff, Ledgers.Apart]
  by_cases hzero : traffic.2 = 0
  · simp [hzero]
  · simp [hzero]

/-- The counts of an import, and what it leaves alone. -/
theorem observed_counts (h : observed digest nodeId items now initializeAbsent l = (.ok traffic, m)) :
    traffic.1.ignoredClients =
        (reportedEmails items).countP (fun e => e ∉ l.hub.allowedTrafficClients nodeId) ∧
      traffic.2 ≤ (reportedEmails items).countP (· ∈ (l.restored nodeId).map Prod.fst) ∧
      (Latest nodeId now l.restore.usage →
        traffic.2 = (reportedEmails items).countP (· ∈ (l.restored nodeId).map Prod.fst)) ∧
      (m.Apart nodeId ↔ l.Apart nodeId) := by
  rcases Tx.bind_ok_iff.mp h with ⟨snapshot, k, hnative, hrest⟩
  rcases Tx.bind_ok_iff.mp hrest with ⟨counted, k', hrecord, hreturn⟩
  rcases Tx.pure_ok_iff.mp hreturn with ⟨rfl, rfl⟩
  rcases Tx.within_ok_iff.mp hnative with ⟨hub, himport, rfl⟩
  have hsources : ∀ item ∈ items, ∃ e, item.source = .ok e := by
    simp only [applyTrafficSnapshot, demandPolicy, Tx.require_bind_iff, Tx.read_bind,
      Tx.transaction_ok_iff] at himport
    rcases Tx.bind_ok_iff.mp himport.2 with ⟨p, u, hitems, _⟩
    exact applyItems_sources hitems
  obtain ⟨hignored, hinbounds, hmanaged⟩ := applyTrafficSnapshot_ignored himport
  obtain ⟨hle, heq, hhub, hsubscriptions⟩ := recordNodeUsage_counted hsources hrecord
  have hrestored : Ledgers.restored { l with hub := hub } nodeId = l.restored nodeId := by
    have hassigned : hub.assigned nodeId = l.hub.assigned nodeId := by
      rw [Hub.assigned, Hub.assigned, hinbounds]
    rw [Ledgers.restored, Ledgers.restored, hassigned]
  rw [hrestored] at hle heq
  refine ⟨hignored, hle, heq, ?_⟩
  simp only [Ledgers.Apart, RestoreTables.coreEmails, hhub, hsubscriptions,
    Hub.allowedTrafficClients, hinbounds, hmanaged]

/-- Whatever is accepted has been taken up: a count of unknown clients cannot be offset by
imported users. -/
theorem accountable_of_accepted {u : Unit}
    (h : observed digest nodeId items now initializeAbsent l = (.ok traffic, m))
    (haccepted : requireAccountedSnapshot nodeId traffic m = (.ok u, m)) :
    ∀ e ∈ reportedEmails items, l.Accountable nodeId e := by
  obtain ⟨hignored, hle, _, hapart⟩ := observed_counts h
  obtain ⟨hsame, hambiguous⟩ := requireAccountedSnapshot_ok_iff.mp haccepted
  by_cases hzero : traffic.2 = 0
  · intro e he
    have hnone := List.countP_eq_zero.mp (hignored.symm.trans (hsame.trans hzero)) e he
    exact .inl (by simpa using hnone)
  · have hapart := hapart.mp (hambiguous hzero)
    have himp : ∀ e ∈ reportedEmails items,
        decide (e ∈ (l.restored nodeId).map Prod.fst) = true →
          decide (e ∉ l.hub.allowedTrafficClients nodeId) = true := by
      intro e _ hrestored
      rw [decide_eq_true_eq] at hrestored ⊢
      exact fun hallowed => hapart e hallowed (Ledgers.restored_subset hrestored)
    have hcounts := List.countP_mono_left himp
    have hall := (countP_eq_iff_of_imp himp).mp (by omega)
    intro e he
    by_cases hallowed : e ∈ l.hub.allowedTrafficClients nodeId
    · exact .inl hallowed
    · exact .inr (of_decide_eq_true (hall e he (by simpa using hallowed)))

/-- The reports that are accepted, where no later sample is stored. -/
theorem accounted_iff {u : Unit}
    (h : observed digest nodeId items now initializeAbsent l = (.ok traffic, m))
    (hlatest : Latest nodeId now l.restore.usage) :
    requireAccountedSnapshot nodeId traffic m = (.ok u, m) ↔
      (∀ e ∈ reportedEmails items, l.Accountable nodeId e) ∧
        ((∃ e ∈ reportedEmails items, e ∈ (l.restored nodeId).map Prod.fst) → l.Apart nodeId) := by
  obtain ⟨hignored, _, heq, hapart⟩ := observed_counts h
  have hcounted := heq hlatest
  have hsome : traffic.2 ≠ 0 ↔
      ∃ e ∈ reportedEmails items, e ∈ (l.restored nodeId).map Prod.fst := by
    rw [hcounted, ← Nat.pos_iff_ne_zero, List.countP_pos_iff]
    simp
  constructor
  · intro haccepted
    refine ⟨accountable_of_accepted h haccepted, fun hreported => ?_⟩
    exact hapart.mp ((requireAccountedSnapshot_ok_iff.mp haccepted).2 (hsome.mpr hreported))
  · rintro ⟨hall, hambiguous⟩
    refine requireAccountedSnapshot_ok_iff.mpr ⟨?_, fun hne => hapart.mpr (hambiguous (hsome.mp hne))⟩
    rw [hignored, hcounted]
    by_cases hzero : traffic.2 = 0
    · have hnone : ∀ e ∈ reportedEmails items, e ∉ (l.restored nodeId).map Prod.fst :=
        fun e he hrestored => hsome.mpr ⟨e, he, hrestored⟩ hzero
      rw [← hcounted, hzero, List.countP_eq_zero]
      intro e he
      simpa using (hall e he).resolve_right (hnone e he)
    · have hapart := hambiguous (hsome.mp hzero)
      refine (List.countP_congr fun e he => ?_)
      rw [decide_eq_true_eq, decide_eq_true_eq]
      constructor
      · exact fun hunmanaged => (hall e he).resolve_left hunmanaged
      · exact fun hrestored hallowed => hapart e hallowed (Ledgers.restored_subset hrestored)

end Accepted

end Nodes
end DarkXray
