import DarkXray.Library.Meters
import DarkXray.Nodes.RestoreUsage
import DarkXray.Nodes.UsageRuns

/-!
# Runs of the imported users' accounting

The usage of an imported user is fed from two sides.  A trigger on the Hub's own client
table adds every increase of a counter, and the observer adds what the reports of a Node
hold beyond the last one.  Both decide by themselves what a counter that went down means,
and a replaced installation tells only the native ledger that its counters began again.

Main results:

- Theorem {lit}`recordItems_spec`: what a report does to every row.
- Theorem {lit}`RestoreSystem.Inv.run` and {lit}`RestoreSystem.Grown.run`: what every run
  keeps.
- Theorem {lit}`RestoreSystem.restore_usage_counted`: what the totals are after every run,
  and when the total of a Node counts each installation from its first byte.
- Theorem {lit}`RestoreSystem.replaced_node_undercounted`: a first report above the last one
  of the old installation is charged only the difference.
-/

namespace DarkXray
namespace Nodes

open Library Policy

/-! ## The trigger -/

/-- A total of a usage row. -/
def RestoreUsageRow.total (r : RestoreUsageRow) : Way → ℤ
  | .up => r.up
  | .down => r.down

/-- A stored counter of a usage row. -/
def RestoreUsageRow.raw (r : RestoreUsageRow) : Way → ℤ
  | .up => r.rawUp
  | .down => r.rawDown

/-- The user is neither promoted nor archived. -/
def RestoreTables.live (t : RestoreTables) (id : String) : Bool :=
  (t.subscriptions.get? id).any RestoreRow.live

/-- The user is live under an email. -/
def RestoreTables.liveAs (t : RestoreTables) (id email : String) : Bool :=
  (t.subscriptions.get? id).any fun r => r.live && r.coreEmail = email

/-- The row of the increase from one pair of counters to another. -/
def gainedRow (old new : ℤ × ℤ) (now : ℕ) : RestoreUsageRow where
  up := counterDelta new.1 old.1
  down := counterDelta new.2 old.2
  rawUp := new.1
  rawDown := new.2
  updatedAt := now
  activityAt := now

/-- {lit}`restore_local_usage_v1`: the counters of a client of the Hub went from one pair to
another. -/
def localUsageTrigger (email : String) (old new : ℤ × ℤ) (now : ℕ) (t : RestoreTables) :
    RestoreTables :=
  if old ≠ new ∧ (t.subscriptions.rows.any fun r => r.2.coreEmail = email && r.2.live) = true then
    let fresh := gainedRow old new now
    { t with
      usage := ((t.subscriptions.rows.filter fun r =>
        r.2.coreEmail = email && r.2.promotedAt = 0).map fun r => ((r.1, "local"), ())).foldl
          (fun u r => u.upsert r.1 fresh fun row =>
            { fresh with up := row.up + fresh.up, down := row.down + fresh.down }) t.usage }
  else t

/-! ## The system -/

/-- A report as the Agent took it: of some clients, with the counters as they were. -/
structure NodeReport where
  nodeId : String
  capturedAt : ℕ
  installation : ℕ
  emails : List String
  counters : String → Way → ℕ

/-- The items of a report. -/
def NodeReport.items (r : NodeReport) : List TrafficItem :=
  r.emails.map fun e => .item (.str e) (.int (r.counters e .up)) (.int (r.counters e .down))

/-- A report of a user that was taken up, with its place among all reports. -/
structure NodeSample where
  email : String
  place : ℕ
  installation : ℕ
  reading : Way → ℕ

/-- The tables, the Hub's own counters, the Nodes with their installations and counters, and
the reports in the order in which they were taken.  {lit}`samples` and {lit}`gained` remember
what the tables forget: the reports taken up for a user, newest first, and what the Hub's own
counters gained while the user was live. -/
structure RestoreSystem where
  ledgers : Ledgers
  core : Table String (ℤ × ℤ)
  clock : ℕ
  installation : String → ℕ
  counters : String → String → Way → ℕ
  reports : List NodeReport
  samples : String × String → List NodeSample
  gained : String → Way → ℕ

/-- What can happen. -/
inductive RestoreEvent where
  | tick
  /-- {lit}`collect_stats` adds bytes to the Hub's own counters. -/
  | coreTraffic (email : String) (bytes : Way → ℕ)
  /-- {lit}`reset` zeroes them. -/
  | coreReset (email : String)
  /-- A client moves bytes on a Node. -/
  | nodeTraffic (nodeId email : String) (bytes : Way → ℕ)
  /-- The Agent takes a report. -/
  | capture (nodeId : String) (emails : List String)
  /-- A report is imported. -/
  | deliver (place : ℕ) (initializeAbsent : Bool)
  /-- {lit}`_replace_locked`: the new installation has counted nothing. -/
  | replace (nodeId : String)
  /-- The user becomes a native client, perhaps under another email. -/
  | promote (id owner email : String)
  /-- The user is archived, and its client is deleted. -/
  | archive (id : String)

namespace RestoreSystem

/-- {lit}`restore_usage`. -/
def usage (w : RestoreSystem) : RestoreUsage :=
  w.ledgers.restore.usage

/-- Give a client of the Hub other counters; the trigger sees them. -/
def updateCore (w : RestoreSystem) (email : String) (new : ℤ × ℤ → ℤ × ℤ) : RestoreSystem :=
  match w.core.get? email with
  | none => w
  | some old => { w with
      core := w.core.update email fun _ => new old
      ledgers := { w.ledgers with
        restore := localUsageTrigger email old (new old) w.clock w.ledgers.restore } }

/-- What is remembered of a report once it is imported. -/
def sampledBy (w : RestoreSystem) (place : ℕ) (r : NodeReport) (k : String × String) :
    List NodeSample :=
  match (w.ledgers.restored r.nodeId).find? fun user => user.2 = k.1 with
  | none => w.samples k
  | some user =>
      if k.2 = r.nodeId ∧ (reportOf r.items user.1).isSome = true then
        ⟨user.1, place, r.installation, r.counters user.1⟩ :: w.samples k
      else w.samples k

/-- Import a report. -/
def importReport (digest : String → String) (w : RestoreSystem) (place : ℕ) (r : NodeReport)
    (initializeAbsent : Bool) : RestoreSystem :=
  match observed digest r.nodeId r.items r.capturedAt initializeAbsent w.ledgers with
  | (.ok _, ledgers) => { w with ledgers := ledgers, samples := w.sampledBy place r }
  | (.error _, ledgers) => { w with ledgers := ledgers }

/-- Promote a user; the new email must not be taken. -/
def promoted (w : RestoreSystem) (id owner email : String) : Option RestoreSystem :=
  (w.ledgers.restore.subscriptions.get? id).bind fun row =>
    if row.live = true ∧
        (email = row.coreEmail ∨
          (w.core.get? email = none ∧ email ∉ w.ledgers.restore.coreEmails)) then
      some { w with
        core :=
          if email = row.coreEmail then w.core
          else
            match w.core.get? row.coreEmail with
            | none => w.core
            | some counters => (w.core.erase row.coreEmail).insert email counters
        ledgers := { w.ledgers with
          restore := { w.ledgers.restore with
            subscriptions := w.ledgers.restore.subscriptions.update id fun r =>
              { r with coreEmail := email, promotedOwner := owner, promotedAt := w.clock } } } }
    else none

/-- Archive a user. -/
def archived (w : RestoreSystem) (id : String) : Option RestoreSystem :=
  (w.ledgers.restore.subscriptions.get? id).bind fun row =>
    if row.live = true then
      some { w with
        core := w.core.erase row.coreEmail
        ledgers := { w.ledgers with
          restore := { w.ledgers.restore with
            subscriptions := w.ledgers.restore.subscriptions.update id fun r =>
              { r with deletedAt := w.clock } } } }
    else none

/-- One event, where it is possible. -/
def next (digest : String → String) (w : RestoreSystem) : RestoreEvent → Option RestoreSystem
  | .tick => some { w with clock := w.clock + 1 }
  | .coreTraffic email bytes => some { w.updateCore email fun old =>
        (old.1 + bytes .up, old.2 + bytes .down) with
      gained := fun id way =>
        w.gained id way +
          if (w.core.get? email).isSome = true ∧ w.ledgers.restore.liveAs id email = true then bytes way else 0 }
  | .coreReset email => some (w.updateCore email fun _ => (0, 0))
  | .nodeTraffic nodeId email bytes => some { w with
      counters := fun n e way =>
        w.counters n e way + if n = nodeId ∧ e = email then bytes way else 0 }
  | .capture nodeId emails => some { w with
      reports := w.reports ++
        [⟨nodeId, w.clock, w.installation nodeId, emails, w.counters nodeId⟩] }
  | .deliver place initializeAbsent =>
      (w.reports[place]?).map fun r => w.importReport digest place r initializeAbsent
  | .replace nodeId => some { w with
      ledgers := { w.ledgers with hub := w.ledgers.hub.rebaseUsage nodeId }
      installation := fun n => if n = nodeId then w.installation n + 1 else w.installation n
      counters := fun n e way => if n = nodeId then 0 else w.counters n e way }
  | .promote id owner email => w.promoted id owner email
  | .archive id => w.archived id

/-- The step relation. -/
def Step (digest : String → String) (w : RestoreSystem) (event : RestoreEvent)
    (w' : RestoreSystem) : Prop :=
  w.next digest event = some w'

/-- No usage is stored yet, and the users have emails of their own. -/
structure Start (w : RestoreSystem) : Prop where
  usage : w.usage = .empty
  emails : w.ledgers.restore.coreEmails.Nodup
  core : ∀ e c, w.core.get? e = some c → 0 ≤ c.1 ∧ 0 ≤ c.2
  clock : 0 < w.clock
  reports : w.reports = []
  samples : ∀ k, w.samples k = []
  gained : ∀ id way, w.gained id way = 0

/-- The live users of a Node that a report is about. -/
def reported (w : RestoreSystem) (r : NodeReport) : List (String × String) :=
  (w.ledgers.restored r.nodeId).filter fun user => (reportOf r.items user.1).isSome

/-- The report was taken no earlier than the ones that were taken up before. -/
def inOrder (w : RestoreSystem) (place : ℕ) (r : NodeReport) : Bool :=
  (w.reported r).all fun user =>
    (w.samples (user.2, r.nodeId)).all fun p => p.place ≤ place

/-- In the first report of an installation, a counter is below the last one of the
installation before, or that one is zero. -/
def recognizable (w : RestoreSystem) (r : NodeReport) : Bool :=
  (w.reported r).all fun user =>
    (w.samples (user.2, r.nodeId)).head?.all fun p =>
      p.installation = r.installation ||
        [Way.up, Way.down].all fun way =>
          decide (r.counters user.1 way < p.reading way) || p.reading way = 0

/-- Reports are imported in order. -/
def InOrder (w : RestoreSystem) : RestoreEvent → Prop
  | .deliver place _ => (w.reports[place]?).all fun r => w.inOrder place r
  | _ => True

/-- Reports are imported in order, and a new installation is recognizable by them. -/
def Recognized (w : RestoreSystem) : RestoreEvent → Prop
  | .deliver place _ => (w.reports[place]?).all fun r => w.inOrder place r && w.recognizable r
  | _ => True

instance instDecidableInOrder (w : RestoreSystem) (event : RestoreEvent) :
    Decidable (w.InOrder event) :=
  match event with
  | .deliver _ _ => inferInstanceAs (Decidable (_ = true))
  | .tick => isTrue trivial
  | .coreTraffic _ _ => isTrue trivial
  | .coreReset _ => isTrue trivial
  | .nodeTraffic _ _ _ => isTrue trivial
  | .capture _ _ => isTrue trivial
  | .replace _ => isTrue trivial
  | .promote _ _ _ => isTrue trivial
  | .archive _ => isTrue trivial

instance instDecidableRecognized (w : RestoreSystem) (event : RestoreEvent) :
    Decidable (w.Recognized event) :=
  match event with
  | .deliver _ _ => inferInstanceAs (Decidable (_ = true))
  | .tick => isTrue trivial
  | .coreTraffic _ _ => isTrue trivial
  | .coreReset _ => isTrue trivial
  | .nodeTraffic _ _ _ => isTrue trivial
  | .capture _ _ => isTrue trivial
  | .replace _ => isTrue trivial
  | .promote _ _ _ => isTrue trivial
  | .archive _ => isTrue trivial

end RestoreSystem

/-! ## What a report does to a row -/

/-- The usage row after a report: a report from before the stored one is skipped. -/
def takeSample (old : Option RestoreUsageRow) (now : ℕ) (c : ℤ × ℤ) : Option RestoreUsageRow :=
  if (old.any fun row => decide (now < row.updatedAt)) = true then old
  else some (sampled old now c.1 c.2)

section Samples

variable {nodeId : String} {now : ℕ} {restored : List (String × String)} {p : Recorded}
  {item : TrafficItem} {u : RestoreUsage} {way : Way}

/-- A counter that is not negative counts no negative difference. -/
theorem counterDelta_nonneg {reported : ℤ} (raw : ℤ) (h : 0 ≤ reported) :
    0 ≤ counterDelta reported raw := by
  unfold counterDelta
  split
  · omega
  · exact h

/-- A sample adds what the counter grew by, or all of it where there was no row. -/
theorem sampled_total (old : Option RestoreUsageRow) (c : ℤ × ℤ) :
    (sampled old now c.1 c.2).total way = old.elim 0 (fun row => row.total way) +
      old.elim (way.pick c.1 c.2) fun row => counterDelta (way.pick c.1 c.2) (row.raw way) := by
  cases old <;> cases way <;> rfl

/-- A sample stores the readings that were reported. -/
theorem sampled_raw (old : Option RestoreUsageRow) (c : ℤ × ℤ) :
    (sampled old now c.1 c.2).raw way = way.pick c.1 c.2 := by
  cases way <;> rfl

/-- The restore import reads an item as the traffic import does. -/
theorem restoreCounters_ok_iff {c : ℤ × ℤ} :
    item.restoreCounters = .ok c ↔ item.counters = .ok c := by
  unfold TrafficItem.restoreCounters
  cases item.counters with
  | error f => simp
  | ok c' => simp

/-- What one item does to every row. -/
theorem recordItem_spec (nodeId : String) (now : ℕ) (restored : List (String × String))
    (p : Recorded) (item : TrafficItem) (u : RestoreUsage) :
    Tx.wp (recordItem nodeId now restored p item)
      (fun q v => (item.restoredAs restored = none ∧ q = p ∧ v = u) ∨
        ∃ user c, item.restoredAs restored = some user ∧ user.1 ∉ p.seen ∧ item.counters = .ok c ∧
          q.seen = user.1 :: p.seen ∧
          ∀ k, v.get? k = if k = (user.2, "node:" ++ nodeId) then takeSample (u.get? k) now c
            else u.get? k)
      (fun _ _ => True) u := by
  unfold recordItem
  cases huser : item.restoredAs restored with
  | none => exact .inl ⟨rfl, rfl, rfl⟩
  | some user =>
      simp only [demandPolicy, Tx.wp_bind, Tx.wp_require, Tx.wp_ofExcept, Tx.wp_read,
        implies_true, and_true]
      intro hunseen c hc
      rw [restoreCounters_ok_iff] at hc
      by_cases hlater : ((u.get? (user.2, "node:" ++ nodeId)).any fun row =>
          decide (now < row.updatedAt)) = true
      · rw [if_pos hlater]
        refine .inr ⟨user, c, rfl, hunseen, hc, rfl, fun k => ?_⟩
        split <;> rename_i hk
        · rw [hk, takeSample, if_pos hlater]
        · rfl
      · rw [if_neg hlater]
        simp only [Tx.wp_bind, Tx.wp_require, Tx.wp_write, Tx.wp_pure, implies_true, and_true]
        intro _
        refine .inr ⟨user, c, rfl, hunseen, hc, rfl, fun k => ?_⟩
        rw [Table.get?_upsert]
        split <;> rename_i hk
        · rw [hk, takeSample, if_neg hlater]
          cases u.get? (user.2, "node:" ++ nodeId) <;> rfl
        · rfl

/-- What a report does to every row: the row of a live user of the Node takes up the report
about it, and no other row changes. -/
theorem recordItems_spec (hemails : (restored.map Prod.fst).Nodup)
    (hids : (restored.map Prod.snd).Nodup) (items : List TrafficItem) :
    ∀ {p : Recorded} {u : RestoreUsage},
      Tx.wp (recordItems nodeId now restored items p)
        (fun _ v =>
          (∀ user ∈ restored, v.get? (user.2, "node:" ++ nodeId) =
            (if user.1 ∈ p.seen then none else reportOf items user.1).elim
              (u.get? (user.2, "node:" ++ nodeId))
              (takeSample (u.get? (user.2, "node:" ++ nodeId)) now)) ∧
          ∀ k, (k.2 ≠ "node:" ++ nodeId ∨ k.1 ∉ restored.map Prod.snd) → v.get? k = u.get? k)
        (fun _ _ => True) u := by
  induction items with
  | nil =>
      intro p u
      rw [recordItems, Tx.wp_pure]
      refine ⟨fun user _ => ?_, fun _ _ => rfl⟩
      have hnone : reportOf [] user.1 = none := rfl
      rw [hnone, ite_self]
      rfl
  | cons item items ih =>
      intro p u
      simp only [recordItems, Tx.wp_bind]
      refine Tx.wp_mono (recordItem_spec nodeId now restored p item u) ?_ fun _ _ h => h
      rintro q v (⟨hnone, rfl, rfl⟩ | ⟨user, c, huser, hunseen, hc, hseen, hrow⟩)
      · refine Tx.wp_mono ih (fun _ w h => ⟨fun user huser => ?_, h.2⟩) fun _ _ h => h
        have hother : item.source ≠ .ok user.1 := by
          intro hsource
          rw [TrafficItem.restoredAs, hsource] at hnone
          have hmissing := List.find?_eq_none.mp hnone user huser
          exact hmissing (decide_eq_true rfl)
        rw [reportOf_cons_other hother]
        exact h.1 user huser
      · have hsource : item.source = .ok user.1 := by
          unfold TrafficItem.restoredAs at huser
          cases hs : item.source with
          | error f => rw [hs] at huser; cases huser
          | ok e =>
              rw [hs] at huser
              have hfound := List.find?_some huser
              rw [decide_eq_true_eq] at hfound
              rw [hfound]
        have hmem : user ∈ restored := by
          unfold TrafficItem.restoredAs at huser
          rw [hsource] at huser
          exact List.mem_of_find?_eq_some huser
        refine Tx.wp_mono ih (fun _ w h => ⟨fun other hother => ?_, fun k hk => ?_⟩) fun _ _ h => h
        · rw [h.1 other hother, hseen, hrow]
          by_cases heq : other = user
          · subst heq
            rw [if_pos List.mem_cons_self, if_pos rfl, if_neg hunseen,
              reportOf_cons_self hsource hc]
            rfl
          · have hemail : other.1 ≠ user.1 := fun h =>
              heq (List.inj_on_of_nodup_map hemails hother hmem h)
            have hid : (other.2, "node:" ++ nodeId) ≠ (user.2, "node:" ++ nodeId) := by
              intro h
              exact heq (List.inj_on_of_nodup_map hids hother hmem (Prod.mk.inj h).1)
            have hskip : item.source ≠ .ok other.1 := by
              rw [hsource]
              exact fun h => hemail (Except.ok.inj h).symm
            rw [if_neg hid, reportOf_cons_other hskip]
            simp only [List.mem_cons, hemail, false_or]
        · rw [h.2 k hk, hrow]
          refine if_neg ?_
          rintro rfl
          rcases hk with hscope | hid
          · exact hscope rfl
          · exact hid (List.mem_map_of_mem hmem)

end Samples

/-! ## What the trigger does -/

section Trigger

variable {email : String} {old new : ℤ × ℤ} {now : ℕ} {t : RestoreTables} {way : Way}

/-- The trigger leaves the users alone. -/
theorem localUsageTrigger_subscriptions :
    (localUsageTrigger email old new now t).subscriptions = t.subscriptions := by
  unfold localUsageTrigger
  split <;> rfl

/-- A user is live under an email if its row is live and has that email. -/
theorem RestoreTables.liveAs_iff {id : String} :
    t.liveAs id email = true ↔
      ∃ row, t.subscriptions.get? id = some row ∧ row.live = true ∧ row.coreEmail = email := by
  unfold RestoreTables.liveAs
  cases t.subscriptions.get? id with
  | none => simp
  | some row => simp

/-- An email belongs to one user. -/
theorem RestoreTables.email_unique (h : t.coreEmails.Nodup) {id id' : String} {row row' : RestoreRow}
    (hrow : t.subscriptions.get? id = some row) (hrow' : t.subscriptions.get? id' = some row')
    (heq : row.coreEmail = row'.coreEmail) : id = id' ∧ row = row' := by
  have hsame := List.inj_on_of_nodup_map h (Table.get?_eq_some_iff.mp hrow)
    (Table.get?_eq_some_iff.mp hrow') heq
  exact Prod.mk.inj hsame

/-- The trigger adds to the local row of the one live user of the email. -/
theorem localUsageTrigger_get? (h : t.coreEmails.Nodup) (k : String × String) :
    (localUsageTrigger email old new now t).usage.get? k =
      if k.2 = "local" ∧ t.liveAs k.1 email = true ∧ old ≠ new then
        some ((t.usage.get? k).elim (gainedRow old new now) fun row =>
          { gainedRow old new now with
            up := row.up + (gainedRow old new now).up
            down := row.down + (gainedRow old new now).down })
      else t.usage.get? k := by
  unfold localUsageTrigger
  by_cases hfires : old ≠ new ∧
      (t.subscriptions.rows.any fun r => r.2.coreEmail = email && r.2.live) = true
  · rw [if_pos hfires]
    obtain ⟨hne, hlive⟩ := hfires
    simp only [List.any_eq_true, Bool.and_eq_true, decide_eq_true_eq] at hlive
    obtain ⟨r, hr, hemail, hrlive⟩ := hlive
    have hrget := Table.get?_eq_some_iff.mpr hr
    have hnodup : (((t.subscriptions.rows.filter fun r =>
        r.2.coreEmail = email && r.2.promotedAt = 0).map fun r => ((r.1, "local"), ())).map
          Prod.fst).Nodup := by
      rw [List.map_map]
      have hkeys := (List.filter_sublist (p := fun r : String × RestoreRow =>
        r.2.coreEmail = email && r.2.promotedAt = 0)).map Prod.fst |>.nodup t.subscriptions.nodupKeys
      refine List.Nodup.of_map Prod.fst ?_
      rw [List.map_map]
      exact hkeys
    by_cases hk : k = (r.1, "local")
    · subst hk
      have hliveAs : t.liveAs r.1 email = true :=
        RestoreTables.liveAs_iff.mpr ⟨r.2, hrget, hrlive, hemail⟩
      have hpromoted : r.2.promotedAt = 0 := by
        simp only [RestoreRow.live, Bool.and_eq_true, decide_eq_true_eq] at hrlive
        exact hrlive.1
      rw [if_pos ⟨rfl, hliveAs, hne⟩]
      dsimp only
      refine Table.get?_foldl_of_mem (b := ())
        (f := fun _ _ old? => some (old?.elim (gainedRow old new now) fun row =>
          { gainedRow old new now with
            up := row.up + (gainedRow old new now).up
            down := row.down + (gainedRow old new now).down })) ?_ ?_ hnodup ?_ t.usage
      · intro u x k hkx
        rw [Table.get?_upsert, if_neg hkx]
      · intro u x
        rw [Table.get?_upsert, if_pos rfl]
        cases u.get? x.1 <;> rfl
      · exact List.mem_map.mpr ⟨r, List.mem_filter.mpr ⟨hr, by simp [hemail, hpromoted]⟩, rfl⟩
    · have hnot : ¬(k.2 = "local" ∧ t.liveAs k.1 email = true ∧ old ≠ new) := by
        rintro ⟨hscope, hlives, _⟩
        obtain ⟨row, hrow, _, hrowemail⟩ := RestoreTables.liveAs_iff.mp hlives
        obtain ⟨hid, _⟩ := RestoreTables.email_unique h hrow hrget (hrowemail.trans hemail.symm)
        exact hk (Prod.ext hid hscope)
      rw [if_neg hnot]
      dsimp only
      refine Table.get?_foldl_of_not_mem ?_ ?_ t.usage
      · intro u x k hkx
        rw [Table.get?_upsert, if_neg hkx]
      · intro hmem
        simp only [List.map_map, List.mem_map, List.mem_filter, Bool.and_eq_true,
          decide_eq_true_eq] at hmem
        obtain ⟨r', ⟨hr', hemail', _⟩, hkey⟩ := hmem
        obtain ⟨hid, _⟩ := RestoreTables.email_unique h (Table.get?_eq_some_iff.mpr hr') hrget
          (hemail'.trans hemail.symm)
        refine hk (hkey.symm.trans ?_)
        rw [Function.comp_apply, hid]
  · rw [if_neg hfires, if_neg]
    rintro ⟨_, hlives, hne⟩
    refine hfires ⟨hne, ?_⟩
    obtain ⟨row, hrow, hrowlive, hrowemail⟩ := RestoreTables.liveAs_iff.mp hlives
    refine List.any_eq_true.mpr ⟨(k.1, row), Table.get?_eq_some_iff.mp hrow, ?_⟩
    simp [hrowemail, hrowlive]

/-- The trigger adds the increase of the counters. -/
theorem localUsageTrigger_total (h : t.coreEmails.Nodup) (id : String) (way : Way) :
    ((localUsageTrigger email old new now t).usage.get? (id, "local")).elim 0
        (fun row => row.total way) =
      (t.usage.get? (id, "local")).elim 0 (fun row => row.total way) +
        if t.liveAs id email = true then counterDelta (way.pick new.1 new.2) (way.pick old.1 old.2)
        else 0 := by
  rw [localUsageTrigger_get? h]
  by_cases hlive : t.liveAs id email = true
  · rw [if_pos hlive]
    by_cases hne : old = new
    · rw [if_neg fun h => h.2.2 hne, hne]
      simp [counterDelta]
    · rw [if_pos ⟨rfl, hlive, hne⟩]
      cases t.usage.get? (id, "local") with
      | none => cases way <;> simp [gainedRow, RestoreUsageRow.total, Way.pick]
      | some row => cases way <;> rfl
  · rw [if_neg hlive, if_neg fun h => hlive h.2.1, add_zero]

end Trigger

/-! ## What an import does -/

section Imports

variable {digest : String → String} {nodeId : String} {items : List TrafficItem} {now : ℕ}
  {initializeAbsent : Bool} {l : Ledgers}

/-- The restored users of a Node are the live ones with an inbound on it. -/
theorem Ledgers.mem_restored {user : String × String} :
    user ∈ l.restored nodeId ↔
      ∃ row, l.restore.subscriptions.get? user.2 = some row ∧ row.coreEmail = user.1 ∧
        row.live = true ∧ ∃ id ∈ row.inboundIds, id ∈ l.hub.assigned nodeId := by
  simp only [Ledgers.restored, List.mem_map, List.mem_filter, Bool.and_eq_true, List.any_eq_true,
    decide_eq_true_eq]
  constructor
  · rintro ⟨r, ⟨hr, hlive, hassigned⟩, rfl⟩
    exact ⟨r.2, Table.get?_eq_some_iff.mpr hr, rfl, hlive, hassigned⟩
  · rintro ⟨row, hrow, hemail, hlive, hassigned⟩
    exact ⟨(user.2, row), ⟨Table.get?_eq_some_iff.mp hrow, hlive, hassigned⟩, Prod.ext hemail rfl⟩

/-- A user is a restored user of a Node once. -/
theorem Ledgers.restored_ids : ((l.restored nodeId).map Prod.snd).Nodup := by
  rw [Ledgers.restored, List.map_map]
  exact (List.filter_sublist.map Prod.fst).nodup l.restore.subscriptions.nodupKeys

/-- Where the emails of the users differ, so do those at a Node. -/
theorem Ledgers.restored_emails (h : l.restore.coreEmails.Nodup) :
    ((l.restored nodeId).map Prod.fst).Nodup := by
  rw [Ledgers.restored, List.map_map]
  exact (List.filter_sublist.map fun r : String × RestoreRow => r.2.coreEmail).nodup h

/-- What the rows of {lit}`restore_usage` are after a report was recorded. -/
structure RecordedRows (nodeId : String) (items : List TrafficItem) (now : ℕ) (l : Ledgers)
    (v : RestoreUsage) : Prop where
  reported : ∀ user ∈ l.restored nodeId, v.get? (user.2, "node:" ++ nodeId) =
    (reportOf items user.1).elim (l.restore.usage.get? (user.2, "node:" ++ nodeId))
      (takeSample (l.restore.usage.get? (user.2, "node:" ++ nodeId)) now)
  others : ∀ k, (k.2 ≠ "node:" ++ nodeId ∨ k.1 ∉ (l.restored nodeId).map Prod.snd) →
    v.get? k = l.restore.usage.get? k

/-- What {lit}`observed` does to the ledger of the imported users; the native import before it
leaves that ledger alone. -/
theorem observed_spec (h : l.restore.coreEmails.Nodup) :
    Tx.wp (observed digest nodeId items now initializeAbsent)
      (fun _ m => m.restore.subscriptions = l.restore.subscriptions ∧
        RecordedRows nodeId items now l m.restore.usage)
      (fun _ m => m.restore = l.restore) l := by
  simp only [observed, recordNodeUsage, Tx.wp_bind, Tx.wp_within, Tx.wp_transaction, Tx.wp_read,
    Tx.wp_pure]
  have hnative : Tx.wp (applyTrafficSnapshot digest nodeId items initializeAbsent)
      (fun _ hub => hub.nodeInbounds = l.hub.nodeInbounds) (fun _ _ => True) l.hub := by
    unfold Tx.wp
    rcases hrun : applyTrafficSnapshot digest nodeId items initializeAbsent l.hub with ⟨_ | r, hub⟩
    · trivial
    · exact (applyTrafficSnapshot_ignored hrun).2.1
  refine Tx.wp_mono hnative (fun _ hub hinbounds => ?_) fun _ _ _ => trivial
  have hrestored : Ledgers.restored { l with hub := hub } nodeId = l.restored nodeId := by
    rw [Ledgers.restored, Ledgers.restored, Hub.assigned, hinbounds, Hub.assigned]
  rw [hrestored]
  refine Tx.wp_mono (recordItems_spec (Ledgers.restored_emails h) Ledgers.restored_ids items)
    (fun p v hv => ⟨trivial, fun user huser => ?_, hv.2⟩) fun _ _ _ => trivial
  simpa using hv.1 user huser

theorem pick_nonneg {c : ℤ × ℤ} (h : 0 ≤ c.1 ∧ 0 ≤ c.2) (way : Way) : 0 ≤ way.pick c.1 c.2 := by
  cases way
  · exact h.1
  · exact h.2

/-- What a report says of an email is not negative. -/
theorem reportOf_nonneg {items : List TrafficItem} {e : String} {c : ℤ × ℤ}
    (h : reportOf items e = some c) : 0 ≤ c.1 ∧ 0 ≤ c.2 := by
  obtain ⟨item, _, hitem⟩ := List.exists_of_findSome?_eq_some h
  split at hitem
  · cases hc : item.counters with
    | error f => rw [hc] at hitem; cases hitem
    | ok c' =>
        rw [hc] at hitem
        cases hitem
        exact counters_nonneg hc
  · cases hitem

/-- A sample lowers no total. -/
theorem takeSample_grows {row : RestoreUsageRow} {now : ℕ} {c : ℤ × ℤ} (hc : 0 ≤ c.1 ∧ 0 ≤ c.2) :
    ∃ row', takeSample (some row) now c = some row' ∧ ∀ way, row.total way ≤ row'.total way := by
  unfold takeSample
  split
  · exact ⟨row, rfl, fun _ => le_refl _⟩
  · refine ⟨_, rfl, fun way => ?_⟩
    rw [sampled_total, Option.elim_some, Option.elim_some]
    exact le_add_of_nonneg_right (counterDelta_nonneg _ (pick_nonneg hc way))

/-- The name of the Hub's own scope is no Node's. -/
theorem local_ne_node (nodeId : String) : "local" ≠ "node:" ++ nodeId := by
  intro h
  have hlist := congrArg String.toList h
  rw [String.toList_append] at hlist
  have hfirst : some 'l' = some 'n' := congrArg List.head? hlist
  exact absurd hfirst (by decide)

/-- Different Nodes have different scopes. -/
theorem node_inj {n n' : String} (h : "node:" ++ n = "node:" ++ n') : n = n' := by
  have hlist := congrArg String.toList h
  rw [String.toList_append, String.toList_append] at hlist
  exact String.toList_inj.mp (List.append_cancel_left hlist)

/-- A report changes only rows of the live users of its Node, and lets them grow. -/
theorem RecordedRows.grown {nodeId : String} {items : List TrafficItem} {now : ℕ} {l : Ledgers}
    {v : RestoreUsage} (h : RecordedRows nodeId items now l v) {k : String × String}
    {row : RestoreUsageRow} (hrow : l.restore.usage.get? k = some row) :
    ∃ row', v.get? k = some row' ∧ ∀ way, row.total way ≤ row'.total way := by
  by_cases hk : k.2 = "node:" ++ nodeId ∧ k.1 ∈ (l.restored nodeId).map Prod.snd
  · obtain ⟨hscope, hid⟩ := hk
    obtain ⟨user, huser, hid⟩ := List.mem_map.mp hid
    have hkey : k = (user.2, "node:" ++ nodeId) := Prod.ext hid.symm hscope
    rw [hkey] at hrow ⊢
    rw [h.reported user huser, hrow]
    cases hreport : reportOf items user.1 with
    | none => exact ⟨row, rfl, fun _ => le_refl _⟩
    | some c => exact takeSample_grows (reportOf_nonneg hreport)
  · rw [h.others k (by rwa [not_and_or] at hk)]
    exact ⟨row, hrow, fun _ => le_refl _⟩

/-- A report leaves the rows of users alone that are not live. -/
theorem RecordedRows.dead {nodeId : String} {items : List TrafficItem} {now : ℕ} {l : Ledgers}
    {v : RestoreUsage} (h : RecordedRows nodeId items now l v) {id : String}
    (hdead : l.restore.live id = false) (scope : String) :
    v.get? (id, scope) = l.restore.usage.get? (id, scope) := by
  refine h.others _ (.inr fun hid => ?_)
  obtain ⟨user, huser, hid⟩ := List.mem_map.mp hid
  obtain ⟨row, hrow, _, hlive, _⟩ := Ledgers.mem_restored.mp huser
  rw [hid] at hrow
  rw [RestoreTables.live, hrow, Option.any_some, hlive] at hdead
  cases hdead

end Imports

namespace RestoreSystem

/-! ## Totals only grow -/

/-- From {lit}`a` to {lit}`b` no total went down, and nothing happened to the users that
were not live any more. -/
structure Grown (a b : RestoreSystem) : Prop where
  rows : ∀ k row, a.usage.get? k = some row →
    ∃ row', b.usage.get? k = some row' ∧ ∀ way, row.total way ≤ row'.total way
  dead : ∀ id, a.ledgers.restore.live id = false →
    b.ledgers.restore.live id = false ∧ ∀ scope, b.usage.get? (id, scope) = a.usage.get? (id, scope)

/-- The users have emails of their own, and the Hub's own counters what they gained. -/
structure Users (w : RestoreSystem) : Prop where
  emails : w.ledgers.restore.coreEmails.Nodup
  core : ∀ e c, w.core.get? e = some c → 0 ≤ c.1 ∧ 0 ≤ c.2
  clock : 0 < w.clock
  gained : ∀ id way,
    (w.usage.get? (id, "local")).elim 0 (fun row => row.total way) = w.gained id way

section Growth

variable {digest : String → String} {a b c w w' : RestoreSystem} {email : String}
  {f : ℤ × ℤ → ℤ × ℤ}

/-- A state has grown from itself. -/
theorem Grown.refl (a : RestoreSystem) : Grown a a :=
  ⟨fun _ row hrow => ⟨row, hrow, fun _ => le_refl _⟩, fun _ hdead => ⟨hdead, fun _ => rfl⟩⟩

/-- Growth composes. -/
theorem Grown.trans (hab : Grown a b) (hbc : Grown b c) : Grown a c := by
  refine ⟨fun k row hrow => ?_, fun id hdead => ?_⟩
  · obtain ⟨row', hrow', hle⟩ := hab.rows k row hrow
    obtain ⟨row'', hrow'', hle'⟩ := hbc.rows k row' hrow'
    exact ⟨row'', hrow'', fun way => (hle way).trans (hle' way)⟩
  · obtain ⟨hdead', hsame⟩ := hab.dead id hdead
    obtain ⟨hdead'', hsame'⟩ := hbc.dead id hdead'
    exact ⟨hdead'', fun scope => (hsame' scope).trans (hsame scope)⟩

/-- Steps that keep the usage only have to keep the dead. -/
theorem Grown.of_usage (husage : b.usage = a.usage)
    (hdead : ∀ id, a.ledgers.restore.live id = false → b.ledgers.restore.live id = false) :
    Grown a b := by
  refine ⟨fun k row hrow => ⟨row, by rwa [husage], fun _ => le_refl _⟩,
    fun id h => ⟨hdead id h, fun scope => by rw [husage]⟩⟩

/-- A user that is not live is not live under any email. -/
theorem liveAs_of_dead {t : RestoreTables} {id : String} (h : t.live id = false) :
    t.liveAs id email = false := by
  unfold RestoreTables.live at h
  unfold RestoreTables.liveAs
  cases hrow : t.subscriptions.get? id with
  | none => rfl
  | some row =>
      rw [hrow, Option.any_some] at h
      rw [Option.any_some, h, Bool.false_and]

/-- Who is live depends on the rows of the users only. -/
theorem live_congr {t t' : RestoreTables} (h : t'.subscriptions = t.subscriptions) (id : String) :
    t'.live id = t.live id := by
  rw [RestoreTables.live, h, RestoreTables.live]

/-- Other counters of the Hub's own, and the trigger. -/
theorem updateCore_some {old : ℤ × ℤ} (h : w.core.get? email = some old) :
    w.updateCore email f = { w with
      core := w.core.update email fun _ => f old
      ledgers := { w.ledgers with
        restore := localUsageTrigger email old (f old) w.clock w.ledgers.restore } } := by
  rw [updateCore, h]

/-- A counter that does not exist is not changed. -/
theorem updateCore_none (h : w.core.get? email = none) : w.updateCore email f = w := by
  rw [updateCore, h]

/-- The trigger lets the totals grow. -/
theorem Users.grown_updateCore (h : w.Users)
    (hf : ∀ old, 0 ≤ old.1 ∧ 0 ≤ old.2 → 0 ≤ (f old).1 ∧ 0 ≤ (f old).2) :
    Grown w (w.updateCore email f) := by
  cases hold : w.core.get? email with
  | none =>
      rw [updateCore_none hold]
      exact .refl w
  | some old =>
      have hnew := hf old (h.core email old hold)
      rw [updateCore_some hold]
      refine ⟨fun k row hrow => ?_, fun id hdead => ⟨?_, fun scope => ?_⟩⟩
      · simp only [usage] at hrow ⊢
        rw [localUsageTrigger_get? h.emails]
        split
        · rw [hrow]
          refine ⟨_, rfl, fun way => ?_⟩
          have hup := counterDelta_nonneg old.1 hnew.1
          have hdown := counterDelta_nonneg old.2 hnew.2
          cases way
          · exact le_add_of_nonneg_right hup
          · exact le_add_of_nonneg_right hdown
        · exact ⟨row, hrow, fun _ => le_refl _⟩
      · rwa [live_congr localUsageTrigger_subscriptions]
      · simp only [usage]
        rw [localUsageTrigger_get? h.emails, if_neg]
        rw [liveAs_of_dead hdead]
        exact fun hlive => Bool.false_ne_true hlive.2.1

/-- Other counters of the Hub's own add their increase to the local totals. -/
theorem Users.updateCore (h : w.Users) {gained : String → Way → ℕ}
    (hf : ∀ old, 0 ≤ old.1 ∧ 0 ≤ old.2 → 0 ≤ (f old).1 ∧ 0 ≤ (f old).2)
    (hgained : ∀ id way, (gained id way : ℤ) = w.gained id way +
      (w.core.get? email).elim 0 fun old =>
        if w.ledgers.restore.liveAs id email = true then
          counterDelta (way.pick (f old).1 (f old).2) (way.pick old.1 old.2)
        else 0) :
    Users { w.updateCore email f with gained := gained } := by
  cases hold : w.core.get? email with
  | none =>
      rw [updateCore_none hold]
      refine { h with gained := fun id way => ?_ }
      rw [hgained, hold, Option.elim_none, add_zero]
      exact h.gained id way
  | some old =>
      rw [updateCore_some hold]
      refine ⟨?_, fun e c hc => ?_, h.clock, fun id way => ?_⟩
      · simp only [RestoreTables.coreEmails, localUsageTrigger_subscriptions]
        exact h.emails
      · dsimp only at hc
        rw [Table.get?_update] at hc
        split at hc <;> rename_i he
        · obtain ⟨c', hc', rfl⟩ := Option.map_eq_some_iff.mp hc
          exact hf old (h.core email old hold)
        · exact h.core e c hc
      · simp only [usage]
        rw [localUsageTrigger_total h.emails, hgained, hold, Option.elim_some]
        congr 1
        exact h.gained id way

/-- What an import does to the tables of the imported users. -/
theorem importReport_cases (h : w.ledgers.restore.coreEmails.Nodup) (place : ℕ) (r : NodeReport)
    (initializeAbsent : Bool) :
    (∃ ledgers, w.importReport digest place r initializeAbsent =
        { w with ledgers := ledgers, samples := w.sampledBy place r } ∧
      ledgers.restore.subscriptions = w.ledgers.restore.subscriptions ∧
      RecordedRows r.nodeId r.items r.capturedAt w.ledgers ledgers.restore.usage) ∨
    ∃ ledgers, w.importReport digest place r initializeAbsent = { w with ledgers := ledgers } ∧
      ledgers.restore = w.ledgers.restore := by
  have hspec : Tx.wp (observed digest r.nodeId r.items r.capturedAt initializeAbsent) _ _ w.ledgers :=
    observed_spec h
  unfold importReport
  rcases hrun : observed digest r.nodeId r.items r.capturedAt initializeAbsent w.ledgers with
    ⟨f | result, ledgers⟩
  · have hraised := Tx.wp_error hspec hrun
    exact .inr ⟨ledgers, rfl, hraised⟩
  · have hreturned := Tx.wp_ok hspec hrun
    exact .inl ⟨ledgers, rfl, hreturned⟩

/-- An import lets the totals grow. -/
theorem Users.grown_importReport (h : w.Users) (place : ℕ) (r : NodeReport)
    (initializeAbsent : Bool) : Grown w (w.importReport digest place r initializeAbsent) := by
  rcases importReport_cases h.emails place r initializeAbsent with
    ⟨ledgers, heq, hsubscriptions, hrows⟩ | ⟨ledgers, heq, hsame⟩
  · rw [heq]
    refine ⟨fun k row hrow => hrows.grown hrow, fun id hdead => ⟨?_, fun scope => ?_⟩⟩
    · rwa [live_congr hsubscriptions]
    · exact hrows.dead hdead scope
  · rw [heq]
    refine Grown.of_usage ?_ fun id hdead => ?_
    · simp only [usage, hsame]
    · rwa [hsame]

/-- An import leaves the local totals alone. -/
theorem Users.importReport (h : w.Users) (place : ℕ) (r : NodeReport)
    (initializeAbsent : Bool) : Users (w.importReport digest place r initializeAbsent) := by
  rcases importReport_cases h.emails place r initializeAbsent with
    ⟨ledgers, heq, hsubscriptions, hrows⟩ | ⟨ledgers, heq, hsame⟩
  · rw [heq]
    refine ⟨?_, h.core, h.clock, fun id way => ?_⟩
    · simp only [RestoreTables.coreEmails, hsubscriptions]
      exact h.emails
    · simp only [usage]
      rw [hrows.others (id, "local") (.inl (local_ne_node r.nodeId))]
      exact h.gained id way
  · rw [heq]
    refine ⟨?_, h.core, h.clock, fun id way => ?_⟩
    · simp only [hsame]
      exact h.emails
    · simp only [usage, hsame]
      exact h.gained id way

/-- Retiring a user: no user becomes live by it. -/
theorem live_update {t : RestoreTables} {id : String} {g : RestoreRow → RestoreRow}
    (hg : ∀ r, (g r).live = false) (id' : String) (h : t.live id' = false) :
    RestoreTables.live { t with subscriptions := t.subscriptions.update id g } id' = false := by
  rw [RestoreTables.live, Table.get?_update]
  split
  · cases t.subscriptions.get? id' with
    | none => rfl
    | some r => rw [Option.map_some, Option.any_some, hg]
  · exact h

/-- An email that is free, or the user's own, keeps the emails apart. -/
theorem coreEmails_update {t : RestoreTables} {id email : String} {row : RestoreRow}
    {g : RestoreRow → RestoreRow} (h : t.coreEmails.Nodup)
    (hrow : t.subscriptions.get? id = some row) (hg : ∀ r, (g r).coreEmail = email)
    (hfree : email = row.coreEmail ∨ email ∉ t.coreEmails) :
    (RestoreTables.coreEmails { t with subscriptions := t.subscriptions.update id g }).Nodup := by
  have hrows : t.subscriptions.rows.Nodup := List.Nodup.of_map Prod.fst t.subscriptions.nodupKeys
  have hnew : ∀ r : String × RestoreRow, (if r.1 = id then g r.2 else r.2).coreEmail =
      if r.1 = id then email else r.2.coreEmail := by
    intro r
    split
    · exact hg r.2
    · rfl
  have hself : ∀ r ∈ t.subscriptions.rows, r.1 = id → r = (id, row) := by
    rintro r hr rfl
    have hsame := Table.get?_eq_some_iff.mpr (show (r.1, r.2) ∈ t.subscriptions.rows from hr)
    exact Prod.ext rfl (Option.some.inj (hsame.symm.trans hrow))
  simp only [RestoreTables.coreEmails, Table.update, Table.mapRows, List.map_map]
  refine List.Nodup.map_on (fun r hr r' hr' heq => ?_) hrows
  simp only [Function.comp_apply, hnew] at heq
  -- another user's email is neither free nor the user's own
  have hother : ∀ s ∈ t.subscriptions.rows, s.1 ≠ id → email ≠ s.2.coreEmail := by
    intro s hs hne hemail
    rcases hfree with hown | hfree
    · have hsame := List.inj_on_of_nodup_map h hs (Table.get?_eq_some_iff.mp hrow)
        (hemail.symm.trans hown)
      exact hne (congrArg Prod.fst hsame)
    · exact hfree (hemail ▸ List.mem_map_of_mem hs)
  by_cases hid : r.1 = id
  · by_cases hid' : r'.1 = id
    · rw [hself r hr hid, hself r' hr' hid']
    · rw [if_pos hid, if_neg hid'] at heq
      exact absurd heq (hother r' hr' hid')
  · by_cases hid' : r'.1 = id
    · rw [if_neg hid, if_pos hid'] at heq
      exact absurd heq.symm (hother r hr hid)
    · rw [if_neg hid, if_neg hid'] at heq
      exact List.inj_on_of_nodup_map h hr hr' heq

/-- A promotion retires the user. -/
theorem Users.promoted (h : w.Users) {id owner : String} (hstep : w.promoted id owner email = some w') :
    w'.Users ∧ Grown w w' := by
  simp only [RestoreSystem.promoted, Option.bind_eq_some_iff] at hstep
  obtain ⟨row, hrow, hstep⟩ := hstep
  split at hstep <;> rename_i hcond
  · obtain ⟨hlive, hfree⟩ := hcond
    cases hstep
    have hretired : ∀ r : RestoreRow, RestoreRow.live
        { r with coreEmail := email, promotedOwner := owner, promotedAt := w.clock } = false := by
      intro r
      have hclock := h.clock
      simp only [RestoreRow.live, Bool.and_eq_false_iff, decide_eq_false_iff_not]
      exact .inl (by omega)
    refine ⟨⟨?_, ?_, h.clock, h.gained⟩, Grown.of_usage rfl (live_update hretired)⟩
    · exact coreEmails_update h.emails hrow (fun _ => rfl) (hfree.imp_right And.right)
    · intro e c hc
      dsimp only at hc
      split at hc
      · exact h.core e c hc
      · rename_i hother
        have hnone := (hfree.resolve_left hother).1
        cases hcounters : w.core.get? row.coreEmail with
        | none =>
            rw [hcounters] at hc
            exact h.core e c hc
        | some counters =>
            rw [hcounters] at hc
            have hgone : (w.core.erase row.coreEmail).get? email = none := by
              rw [Table.get?_erase, if_neg hother, hnone]
            dsimp only at hc
            rw [Table.get?_insert hgone, Table.get?_erase] at hc
            split at hc
            · cases hc
              exact h.core _ _ hcounters
            · split at hc
              · cases hc
              · exact h.core e c hc
  · cases hstep

/-- So does an archive. -/
theorem Users.archived (h : w.Users) {id : String} (hstep : w.archived id = some w') :
    w'.Users ∧ Grown w w' := by
  simp only [RestoreSystem.archived, Option.bind_eq_some_iff] at hstep
  obtain ⟨row, hrow, hstep⟩ := hstep
  split at hstep <;> rename_i hcond
  · cases hstep
    have hretired : ∀ r : RestoreRow, RestoreRow.live { r with deletedAt := w.clock } = false := by
      intro r
      have hclock := h.clock
      simp only [RestoreRow.live, Bool.and_eq_false_iff, decide_eq_false_iff_not]
      exact .inr (by omega)
    refine ⟨⟨?_, fun e c hc => ?_, h.clock, h.gained⟩, Grown.of_usage rfl (live_update hretired)⟩
    · have hsame : RestoreTables.coreEmails { w.ledgers.restore with
          subscriptions := w.ledgers.restore.subscriptions.update id fun r =>
            { r with deletedAt := w.clock } } = w.ledgers.restore.coreEmails := by
        simp only [RestoreTables.coreEmails, Table.update, Table.mapRows, List.map_map]
        refine List.map_congr_left fun r _ => ?_
        rw [Function.comp_apply]
        split <;> rfl
      rw [hsame]
      exact h.emails
    · dsimp only at hc
      rw [Table.get?_erase] at hc
      split at hc
      · cases hc
      · exact h.core e c hc
  · cases hstep

/-- What every step keeps, and what it lets grow. -/
theorem Users.step {event : RestoreEvent} (h : w.Users) (hstep : w.next digest event = some w') :
    w'.Users ∧ Grown w w' := by
  cases event with
  | tick =>
      cases hstep
      exact ⟨{ h with clock := Nat.succ_pos _ }, Grown.of_usage rfl fun _ hdead => hdead⟩
  | coreTraffic email bytes =>
      cases hstep
      have hf : ∀ old : ℤ × ℤ, 0 ≤ old.1 ∧ 0 ≤ old.2 →
          0 ≤ old.1 + bytes .up ∧ 0 ≤ old.2 + bytes .down := by
        intro old hold
        omega
      refine ⟨h.updateCore hf fun id way => ?_, ?_⟩
      · cases hold : w.core.get? email with
        | none => simp
        | some old =>
            have hdelta : counterDelta (way.pick (old.1 + bytes .up) (old.2 + bytes .down))
                (way.pick old.1 old.2) = bytes way := by
              cases way <;> simp [counterDelta, Way.pick]
            simp only [Option.isSome_some, true_and, Option.elim_some, hdelta]
            split
            · push_cast
              rfl
            · simp
      · have hgrown : Grown w (w.updateCore email fun old =>
            (old.1 + bytes .up, old.2 + bytes .down)) := h.grown_updateCore hf
        exact ⟨hgrown.rows, hgrown.dead⟩
  | coreReset email =>
      cases hstep
      have hf : ∀ old : ℤ × ℤ, 0 ≤ old.1 ∧ 0 ≤ old.2 →
          0 ≤ ((0, 0) : ℤ × ℤ).1 ∧ 0 ≤ ((0, 0) : ℤ × ℤ).2 := fun _ _ => ⟨le_refl 0, le_refl 0⟩
      refine ⟨?_, h.grown_updateCore hf⟩
      have hkeep : Users { w.updateCore email fun _ => (0, 0) with gained := w.gained } := by
        refine h.updateCore hf fun id way => ?_
        cases hold : w.core.get? email with
        | none => simp
        | some old =>
            have hpos := pick_nonneg (h.core email old hold) way
            have hzero : way.pick 0 0 = 0 := by cases way <;> rfl
            have hdelta : counterDelta (way.pick 0 0) (way.pick old.1 old.2) = 0 := by
              rw [hzero, counterDelta]
              split <;> omega
            simp [hdelta]
      have hsame : { w.updateCore email fun _ => (0, 0) with gained := w.gained } =
          w.updateCore email fun _ => (0, 0) := by
        cases hold : w.core.get? email with
        | none => rw [updateCore_none hold]
        | some old => rw [updateCore_some hold]
      rwa [hsame] at hkeep
  | nodeTraffic nodeId email bytes =>
      cases hstep
      exact ⟨⟨h.emails, h.core, h.clock, h.gained⟩, Grown.of_usage rfl fun _ hdead => hdead⟩
  | capture nodeId emails =>
      cases hstep
      exact ⟨⟨h.emails, h.core, h.clock, h.gained⟩, Grown.of_usage rfl fun _ hdead => hdead⟩
  | deliver place initializeAbsent =>
      obtain ⟨r, _, rfl⟩ := Option.map_eq_some_iff.mp hstep
      exact ⟨h.importReport place r initializeAbsent, h.grown_importReport place r initializeAbsent⟩
  | replace nodeId =>
      cases hstep
      exact ⟨⟨h.emails, h.core, h.clock, h.gained⟩, Grown.of_usage rfl fun _ hdead => hdead⟩
  | promote id owner email => exact h.promoted hstep
  | archive id => exact h.archived hstep

end Growth

/-! ## Reports in their order -/

/-- The second report of a Node was not taken before the first. -/
structure Precedes (r r' : NodeReport) : Prop where
  time : r.capturedAt ≤ r'.capturedAt
  installation : r.installation ≤ r'.installation
  counters : r.installation = r'.installation → ∀ e way, r.counters e way ≤ r'.counters e way

/-- A report of nobody, taken now. -/
def now (w : RestoreSystem) (nodeId : String) : NodeReport :=
  ⟨nodeId, w.clock, w.installation nodeId, [], w.counters nodeId⟩

/-- The reports stand in the order in which they were taken. -/
structure Reports (w : RestoreSystem) : Prop where
  taken : ∀ (place : ℕ) (r : NodeReport), w.reports[place]? = some r → Precedes r (w.now r.nodeId)
  ordered : ∀ (i j : ℕ) (r r' : NodeReport), i ≤ j → w.reports[i]? = some r → w.reports[j]? = some r' →
    r.nodeId = r'.nodeId → Precedes r r'

/-- What was taken up for a user are reports of its Node, and of its email while it is live. -/
def Sampled (w : RestoreSystem) : Prop :=
  ∀ k, ∀ p ∈ w.samples k, ∃ r, w.reports[p.place]? = some r ∧ r.nodeId = k.2 ∧
    r.installation = p.installation ∧ p.reading = r.counters p.email ∧
    ∀ row, w.ledgers.restore.subscriptions.get? k.1 = some row → row.live = true →
      row.coreEmail = p.email

section Order

variable {digest : String → String} {w w' : RestoreSystem}

/-- A report precedes itself. -/
theorem Precedes.refl (r : NodeReport) : Precedes r r :=
  ⟨le_refl _, le_refl _, fun _ _ _ => le_refl _⟩

/-- Steps that move the Nodes on keep the order. -/
theorem Reports.later (h : w.Reports) (hreports : w'.reports = w.reports)
    (hnow : ∀ n r, Precedes r (w.now n) → Precedes r (w'.now n)) : w'.Reports := by
  refine ⟨fun place r hr => ?_, fun i j r r' hij hi hj => ?_⟩
  · rw [hreports] at hr
    exact hnow _ r (h.taken place r hr)
  · rw [hreports] at hi hj
    exact h.ordered i j r r' hij hi hj

/-- A change of the Hub's own counters leaves the Nodes and the users alone. -/
theorem updateCore_frame (w : RestoreSystem) (email : String) (f : ℤ × ℤ → ℤ × ℤ) :
    (w.updateCore email f).clock = w.clock ∧ (w.updateCore email f).installation = w.installation ∧
      (w.updateCore email f).counters = w.counters ∧ (w.updateCore email f).reports = w.reports ∧
      (w.updateCore email f).samples = w.samples ∧
      (w.updateCore email f).ledgers.restore.subscriptions = w.ledgers.restore.subscriptions := by
  cases hold : w.core.get? email with
  | none =>
      rw [updateCore_none hold]
      exact ⟨rfl, rfl, rfl, rfl, rfl, rfl⟩
  | some old =>
      rw [updateCore_some hold]
      exact ⟨rfl, rfl, rfl, rfl, rfl, localUsageTrigger_subscriptions⟩

/-- The import of a report leaves the Nodes alone. -/
theorem importReport_frame (digest : String → String) (w : RestoreSystem) (place : ℕ) (r : NodeReport)
    (initializeAbsent : Bool) :
    (w.importReport digest place r initializeAbsent).clock = w.clock ∧
      (w.importReport digest place r initializeAbsent).installation = w.installation ∧
      (w.importReport digest place r initializeAbsent).counters = w.counters ∧
      (w.importReport digest place r initializeAbsent).reports = w.reports := by
  unfold importReport
  split <;> exact ⟨rfl, rfl, rfl, rfl⟩

/-- A promotion leaves the Nodes and the usage alone. -/
theorem promoted_frame {id owner email : String} (h : w.promoted id owner email = some w') :
    w'.clock = w.clock ∧ w'.installation = w.installation ∧ w'.counters = w.counters ∧
      w'.reports = w.reports ∧ w'.samples = w.samples ∧ w'.usage = w.usage ∧
      w'.ledgers.restore.subscriptions = w.ledgers.restore.subscriptions.update id fun r =>
        { r with coreEmail := email, promotedOwner := owner, promotedAt := w.clock } := by
  simp only [promoted, Option.bind_eq_some_iff] at h
  obtain ⟨row, _, h⟩ := h
  split at h
  · cases h
    exact ⟨rfl, rfl, rfl, rfl, rfl, rfl, rfl⟩
  · cases h

/-- An archival leaves the Nodes and the usage alone. -/
theorem archived_frame {id : String} (h : w.archived id = some w') :
    w'.clock = w.clock ∧ w'.installation = w.installation ∧ w'.counters = w.counters ∧
      w'.reports = w.reports ∧ w'.samples = w.samples ∧ w'.usage = w.usage ∧
      w'.ledgers.restore.subscriptions = w.ledgers.restore.subscriptions.update id fun r =>
        { r with deletedAt := w.clock } := by
  simp only [archived, Option.bind_eq_some_iff] at h
  obtain ⟨row, _, h⟩ := h
  split at h
  · cases h
    exact ⟨rfl, rfl, rfl, rfl, rfl, rfl, rfl⟩
  · cases h

/-- What a Node would report now depends on the clock, the installation and the counters. -/
theorem now_congr (hclock : w'.clock = w.clock) (hinstallation : w'.installation = w.installation)
    (hcounters : w'.counters = w.counters) (n : String) : w'.now n = w.now n := by
  rw [now, hclock, hinstallation, hcounters, now]

/-- Every step keeps the order of the reports. -/
theorem Reports.step {event : RestoreEvent} (h : w.Reports)
    (hstep : w.next digest event = some w') : w'.Reports := by
  cases event with
  | tick =>
      cases hstep
      refine h.later rfl fun n r hr => ⟨hr.time.trans (Nat.le_succ _), hr.installation, hr.counters⟩
  | coreTraffic email bytes =>
      cases hstep
      obtain ⟨hclock, hinst, hcounters, hreports, _⟩ := updateCore_frame w email fun old =>
        (old.1 + bytes .up, old.2 + bytes .down)
      refine h.later hreports fun n r hr => ?_
      have hnow := now_congr hclock hinst hcounters n
      exact hnow ▸ hr
  | coreReset email =>
      cases hstep
      obtain ⟨hclock, hinst, hcounters, hreports, _⟩ := updateCore_frame w email fun _ => (0, 0)
      refine h.later hreports fun n r hr => ?_
      rwa [now_congr hclock hinst hcounters]
  | nodeTraffic nodeId email bytes =>
      cases hstep
      refine h.later rfl fun n r hr => ⟨hr.time, hr.installation, fun heq e way => ?_⟩
      exact (hr.counters heq e way).trans (Nat.le_add_right _ _)
  | capture nodeId emails =>
      cases hstep
      have hnew : ∀ (place : ℕ) (r : NodeReport), (w.reports ++ [(⟨nodeId, w.clock, w.installation nodeId, emails,
          w.counters nodeId⟩ : NodeReport)])[place]? = some r →
            w.reports[place]? = some r ∨ (w.reports.length ≤ place ∧
              r = ⟨nodeId, w.clock, w.installation nodeId, emails, w.counters nodeId⟩) := by
        intro place r hr
        by_cases hplace : place < w.reports.length
        · rw [List.getElem?_append_left hplace] at hr
          exact .inl hr
        · rw [not_lt] at hplace
          rw [List.getElem?_append_right hplace, List.getElem?_singleton] at hr
          split at hr
          · exact .inr ⟨hplace, (Option.some.inj hr).symm⟩
          · cases hr
      refine ⟨fun place r hr => ?_, fun i j r r' hij hi hj hnode => ?_⟩
      · rcases hnew place r hr with hold | ⟨_, rfl⟩
        · exact h.taken place r hold
        · exact ⟨le_refl _, le_refl _, fun _ _ _ => le_refl _⟩
      · rcases hnew i r hi with hold | ⟨hi', rfl⟩
        · rcases hnew j r' hj with hold' | ⟨_, rfl⟩
          · exact h.ordered i j r r' hij hold hold' hnode
          · have htaken := h.taken i r hold
            rw [hnode] at htaken
            exact ⟨htaken.time, htaken.installation, htaken.counters⟩
        · rcases hnew j r' hj with hold' | ⟨_, rfl⟩
          · obtain ⟨hlt, _⟩ := List.getElem?_eq_some_iff.mp hold'
            omega
          · exact .refl _
  | deliver place initializeAbsent =>
      obtain ⟨r, _, rfl⟩ := Option.map_eq_some_iff.mp hstep
      obtain ⟨hclock, hinst, hcounters, hreports⟩ :=
        importReport_frame digest w place r initializeAbsent
      refine h.later hreports fun n r' hr => ?_
      rwa [now_congr hclock hinst hcounters]
  | replace nodeId =>
      cases hstep
      refine h.later rfl fun n r hr => ⟨hr.time, ?_, fun heq e way => ?_⟩
      · have hle : r.installation ≤ w.installation n := hr.installation
        change r.installation ≤ if n = nodeId then w.installation n + 1 else w.installation n
        split <;> omega
      · have hle : r.installation ≤ w.installation n := hr.installation
        change r.installation = (if n = nodeId then w.installation n + 1 else w.installation n) at heq
        change r.counters e way ≤ if n = nodeId then 0 else w.counters n e way
        by_cases hn : n = nodeId
        · rw [if_pos hn] at heq
          omega
        · rw [if_neg hn] at heq ⊢
          exact hr.counters heq e way
  | promote id owner email =>
      obtain ⟨hclock, hinst, hcounters, hreports, _⟩ := promoted_frame hstep
      refine h.later hreports fun n r hr => ?_
      rwa [now_congr hclock hinst hcounters]
  | archive id =>
      obtain ⟨hclock, hinst, hcounters, hreports, _⟩ := archived_frame hstep
      refine h.later hreports fun n r hr => ?_
      rwa [now_congr hclock hinst hcounters]

/-- The user of a list of users is the one found by its id. -/
theorem find?_restored {l : Ledgers} {nodeId : String} {user : String × String}
    (h : user ∈ l.restored nodeId) :
    ((l.restored nodeId).find? fun u => u.2 = user.2) = some user := by
  cases hfind : (l.restored nodeId).find? fun u => u.2 = user.2 with
  | none =>
      have hnone := List.find?_eq_none.mp hfind user h
      exact absurd (decide_eq_true rfl) hnone
  | some other =>
      have hid : other.2 = user.2 := by simpa using List.find?_some hfind
      rw [List.inj_on_of_nodup_map Ledgers.restored_ids (List.mem_of_find?_eq_some hfind) h hid]

/-- A report is a sample of each restored user that it names. -/
theorem sampledBy_reported {place : ℕ} {r : NodeReport} {user : String × String}
    (h : user ∈ w.ledgers.restored r.nodeId) :
    w.sampledBy place r (user.2, r.nodeId) =
      if (reportOf r.items user.1).isSome = true then
        ⟨user.1, place, r.installation, r.counters user.1⟩ :: w.samples (user.2, r.nodeId)
      else w.samples (user.2, r.nodeId) := by
  simp only [sampledBy, find?_restored h, true_and]

/-- A report is no sample of other users, or of other Nodes. -/
theorem sampledBy_other {place : ℕ} {r : NodeReport} {k : String × String}
    (h : k.2 ≠ r.nodeId ∨ k.1 ∉ (w.ledgers.restored r.nodeId).map Prod.snd) :
    w.sampledBy place r k = w.samples k := by
  unfold sampledBy
  cases hfind : (w.ledgers.restored r.nodeId).find? fun user => user.2 = k.1 with
  | none => rfl
  | some user =>
      have hid : user.2 = k.1 := by simpa using List.find?_some hfind
      have hmem : k.1 ∈ (w.ledgers.restored r.nodeId).map Prod.snd :=
        hid ▸ List.mem_map_of_mem (List.mem_of_find?_eq_some hfind)
      exact if_neg fun h' => (h.resolve_right (not_not.mpr hmem)) h'.1

/-- A row is about a live user of the Node, or it is not. -/
theorem restored_cases (l : Ledgers) (nodeId : String) (k : String × String) :
    (∃ user ∈ l.restored nodeId, k = (user.2, nodeId)) ∨
      (k.2 ≠ nodeId ∨ k.1 ∉ (l.restored nodeId).map Prod.snd) := by
  by_cases hk : k.2 = nodeId ∧ k.1 ∈ (l.restored nodeId).map Prod.snd
  · obtain ⟨user, huser, hid⟩ := List.mem_map.mp hk.2
    exact .inl ⟨user, huser, Prod.ext hid.symm hk.1⟩
  · exact .inr (by rwa [not_and_or] at hk)

/-- Steps that neither take reports up nor make users live keep what was taken up. -/
theorem Sampled.keep (h : w.Sampled) (hsamples : w'.samples = w.samples)
    (hreports : ∀ (place : ℕ) (r : NodeReport), w.reports[place]? = some r →
      w'.reports[place]? = some r)
    (hlive : ∀ id row, w'.ledgers.restore.subscriptions.get? id = some row → row.live = true →
      ∃ row', w.ledgers.restore.subscriptions.get? id = some row' ∧ row'.live = true ∧
        row'.coreEmail = row.coreEmail) : w'.Sampled := by
  intro k p hp
  rw [hsamples] at hp
  obtain ⟨r, hr, hnode, hinst, hreading, hemail⟩ := h k p hp
  refine ⟨r, hreports _ r hr, hnode, hinst, hreading, fun row hrow hrowlive => ?_⟩
  obtain ⟨row', hrow', hlive', hsame⟩ := hlive k.1 row hrow hrowlive
  rw [← hsame]
  exact hemail row' hrow' hlive'

/-- A row that is live after another one has ended was live before, with its email. -/
theorem live_of_update {t : Table String RestoreRow} {id id' : String} {g : RestoreRow → RestoreRow}
    (hg : ∀ r, (g r).live = false) {row : RestoreRow} (hrow : (t.update id g).get? id' = some row)
    (hlive : row.live = true) :
    ∃ row', t.get? id' = some row' ∧ row'.live = true ∧ row'.coreEmail = row.coreEmail := by
  rw [Table.get?_update] at hrow
  split at hrow
  · obtain ⟨r, _, rfl⟩ := Option.map_eq_some_iff.mp hrow
    rw [hg] at hlive
    cases hlive
  · exact ⟨row, hrow, hlive, rfl⟩

/-- Every step keeps what was taken up. -/
theorem Sampled.step {event : RestoreEvent} (h : w.Sampled) (husers : w.Users)
    (hstep : w.next digest event = some w') : w'.Sampled := by
  have hsame : ∀ id row, w.ledgers.restore.subscriptions.get? id = some row → row.live = true →
      ∃ row', w.ledgers.restore.subscriptions.get? id = some row' ∧ row'.live = true ∧
        row'.coreEmail = row.coreEmail := fun _ row hrow hlive => ⟨row, hrow, hlive, rfl⟩
  cases event with
  | tick =>
      cases hstep
      exact h.keep rfl (fun _ _ hr => hr) hsame
  | coreTraffic email bytes =>
      cases hstep
      obtain ⟨_, _, _, hreports, hsamples, hsubs⟩ := updateCore_frame w email fun old =>
        (old.1 + bytes .up, old.2 + bytes .down)
      refine h.keep hsamples (fun place r hr => ?_) ?_
      · dsimp only
        rwa [hreports]
      · dsimp only
        rwa [hsubs]
  | coreReset email =>
      cases hstep
      obtain ⟨_, _, _, hreports, hsamples, hsubs⟩ := updateCore_frame w email fun _ => (0, 0)
      refine h.keep hsamples (fun place r hr => by rwa [hreports]) ?_
      rwa [hsubs]
  | nodeTraffic nodeId email bytes =>
      cases hstep
      exact h.keep rfl (fun _ _ hr => hr) hsame
  | capture nodeId emails =>
      cases hstep
      refine h.keep rfl (fun place r hr => ?_) hsame
      obtain ⟨hlt, _⟩ := List.getElem?_eq_some_iff.mp hr
      dsimp only
      rwa [List.getElem?_append_left hlt]
  | deliver place initializeAbsent =>
      obtain ⟨r, hr, rfl⟩ := Option.map_eq_some_iff.mp hstep
      rcases importReport_cases husers.emails place r initializeAbsent with
        ⟨ledgers, heq, hsubscriptions, _⟩ | ⟨ledgers, heq, hrestore⟩
      · rw [heq]
        intro k p hp
        dsimp only at hp ⊢
        rw [hsubscriptions]
        rcases restored_cases w.ledgers r.nodeId k with ⟨user, huser, rfl⟩ | hother
        · rw [sampledBy_reported huser] at hp
          split at hp
          · rcases List.mem_cons.mp hp with rfl | hp
            · refine ⟨r, hr, rfl, rfl, rfl, fun row hrow _ => ?_⟩
              obtain ⟨row', hrow', hemail, _⟩ := Ledgers.mem_restored.mp huser
              rw [hrow', Option.some.injEq] at hrow
              rw [← hrow]
              exact hemail
            · exact h _ p hp
          · exact h _ p hp
        · rw [sampledBy_other hother] at hp
          exact h k p hp
      · rw [heq]
        refine h.keep rfl (fun _ _ hr => hr) ?_
        dsimp only
        rwa [hrestore]
  | replace nodeId =>
      cases hstep
      exact h.keep rfl (fun _ _ hr => hr) hsame
  | promote id owner email =>
      obtain ⟨_, _, _, hreports, hsamples, _, hsubs⟩ := promoted_frame hstep
      have hclock := husers.clock
      refine h.keep hsamples (fun place r hr => by rwa [hreports]) fun id' row hrow hlive => ?_
      rw [hsubs] at hrow
      refine live_of_update (fun r => ?_) hrow hlive
      simp only [RestoreRow.live, Bool.and_eq_false_iff, decide_eq_false_iff_not]
      exact .inl (by omega)
  | archive id =>
      obtain ⟨_, _, _, hreports, hsamples, _, hsubs⟩ := archived_frame hstep
      have hclock := husers.clock
      refine h.keep hsamples (fun place r hr => by rwa [hreports]) fun id' row hrow hlive => ?_
      rw [hsubs] at hrow
      refine live_of_update (fun r => ?_) hrow hlive
      simp only [RestoreRow.live, Bool.and_eq_false_iff, decide_eq_false_iff_not]
      exact .inr (by omega)

end Order

/-! ## Counting each installation from its first byte -/

/-- The row of what was taken up: it was stored by the last report, and its totals are what
each installation had counted at its last report. -/
def CountedRow (reports : List NodeReport) (samples : List NodeSample)
    (row : Option RestoreUsageRow) : Prop :=
  match samples with
  | [] => row = none
  | p :: _ => ∃ r row', reports[p.place]? = some r ∧ row = some row' ∧
      row'.updatedAt = r.capturedAt ∧ ∀ way, row'.raw way = p.reading way ∧
        row'.total way =
          lastReadings none (samples.map fun q => (q.installation, q.reading way))

/-- All rows of the Nodes are counted so. -/
def Counted (w : RestoreSystem) : Prop :=
  ∀ id node, CountedRow w.reports (w.samples (id, node)) (w.usage.get? (id, "node:" ++ node))

section Counting

variable {digest : String → String} {w w' : RestoreSystem}

/-- What a report says of an email is the counter of the email in it. -/
theorem reportOf_items {r : NodeReport} {e : String} {c : ℤ × ℤ}
    (h : reportOf r.items e = some c) (way : Way) : way.pick c.1 c.2 = r.counters e way := by
  obtain ⟨item, hmem, hitem⟩ := List.exists_of_findSome?_eq_some h
  obtain ⟨e', _, rfl⟩ := List.mem_map.mp hmem
  split at hitem <;> rename_i hsource
  · simp only [TrafficItem.source, Except.ok.injEq] at hsource
    subst hsource
    simp only [TrafficItem.counters] at hitem
    split at hitem
    · cases hitem
      cases way <;> rfl
    · cases hitem
  · cases hitem

/-- Taking a report up that is in order and recognizable. -/
theorem CountedRow.take {reports : List NodeReport} {samples : List NodeSample}
    {row : Option RestoreUsageRow} {place : ℕ} {r : NodeReport} {e : String} {c : ℤ × ℤ}
    (h : CountedRow reports samples row) (hr : reports[place]? = some r)
    (hc : ∀ way, way.pick c.1 c.2 = r.counters e way)
    (hearlier : ∀ p r', samples.head? = some p → reports[p.place]? = some r' →
      Precedes r' r ∧ r'.installation = p.installation ∧ p.reading = r'.counters e)
    (hrecognizable : ∀ p, samples.head? = some p → p.installation ≠ r.installation →
      ∀ way, r.counters e way < p.reading way ∨ p.reading way = 0) :
    CountedRow reports (⟨e, place, r.installation, r.counters e⟩ :: samples)
      (takeSample row r.capturedAt c) := by
  cases samples with
  | nil =>
      have hnone : row = none := h
      subst hnone
      refine ⟨r, sampled none r.capturedAt c.1 c.2, hr, rfl, rfl, fun way => ⟨?_, ?_⟩⟩
      · rw [sampled_raw, hc]
      · rw [sampled_total, List.map_cons, lastReadings_cons_none, Option.elim_none, Option.elim_none,
          zero_add, hc]
        simp [lastReadings]
  | cons p rest =>
      obtain ⟨r', old, hr', rfl, hupdated, hold⟩ := h
      obtain ⟨hprecedes, hinst, hreading⟩ := hearlier p r' rfl hr'
      have htime : ¬(((some old).any fun row => decide (r.capturedAt < row.updatedAt)) = true) := by
        rw [Option.any_some, decide_eq_true_eq, hupdated, not_lt]
        exact hprecedes.time
      refine ⟨r, sampled (some old) r.capturedAt c.1 c.2, hr, ?_, rfl, fun way => ⟨?_, ?_⟩⟩
      · rw [takeSample, if_neg htime]
      · rw [sampled_raw, hc]
      · obtain ⟨hraw, htotal⟩ := hold way
        rw [List.map_cons] at htotal
        rw [sampled_total, Option.elim_some, Option.elim_some, hc, hraw, List.map_cons, List.map_cons,
          htotal]
        by_cases hsame : p.installation = r.installation
        · have hle : p.reading way ≤ r.counters e way := by
            rw [hreading]
            exact hprecedes.counters (hinst.trans hsame) e way
          have hlast := @lastReadings_same p.installation (p.reading way) (r.counters e way)
            (rest.map fun q => (q.installation, q.reading way))
          rw [← hsame, counterDelta, if_pos (by exact_mod_cast hle)]
          dsimp only
          omega
        · rw [lastReadings_new hsame, counterDelta]
          have hbelow := hrecognizable p rfl hsame way
          push_cast
          split <;> omega

/-- Rows and samples that stay as they are stay counted. -/
theorem CountedRow.keep {reports reports' : List NodeReport} {samples : List NodeSample}
    {row : Option RestoreUsageRow} (h : CountedRow reports samples row)
    (hreports : ∀ (place : ℕ) (r : NodeReport), reports[place]? = some r →
      reports'[place]? = some r) : CountedRow reports' samples row := by
  cases samples with
  | nil => exact h
  | cons p rest =>
      obtain ⟨r, row', hr, hrow⟩ := h
      exact ⟨r, row', hreports _ r hr, hrow⟩

/-- Steps that keep the samples, the reports and the usage at the Nodes keep the count. -/
theorem Counted.keep (h : w.Counted) (hsamples : w'.samples = w.samples)
    (hreports : ∀ (place : ℕ) (r : NodeReport), w.reports[place]? = some r →
      w'.reports[place]? = some r)
    (husage : ∀ id node, w'.usage.get? (id, "node:" ++ node) = w.usage.get? (id, "node:" ++ node)) :
    w'.Counted := by
  intro id node
  rw [hsamples, husage]
  exact (h id node).keep hreports

/-- A change of the Hub's own counters leaves the usage at the Nodes alone. -/
theorem updateCore_usage (h : w.Users) (email : String) (f : ℤ × ℤ → ℤ × ℤ) (id node : String) :
    (w.updateCore email f).usage.get? (id, "node:" ++ node) =
      w.usage.get? (id, "node:" ++ node) := by
  cases hold : w.core.get? email with
  | none => rw [updateCore_none hold]
  | some old =>
      rw [updateCore_some hold]
      simp only [usage]
      rw [localUsageTrigger_get? h.emails, if_neg]
      exact fun hlocal => local_ne_node node hlocal.1.symm

/-- A step that takes reports in order, and a new installation recognizable by them, counts
each installation from its first byte. -/
theorem Counted.step {event : RestoreEvent} (h : w.Counted) (husers : w.Users)
    (hreports : w.Reports) (hsampled : w.Sampled) (hok : w.Recognized event)
    (hstep : w.next digest event = some w') : w'.Counted := by
  cases event with
  | tick =>
      cases hstep
      exact h.keep rfl (fun _ _ hr => hr) fun _ _ => rfl
  | coreTraffic email bytes =>
      cases hstep
      obtain ⟨_, _, _, hkept, hsamples, _⟩ := updateCore_frame w email fun old =>
        (old.1 + bytes .up, old.2 + bytes .down)
      refine h.keep hsamples (fun place r hr => ?_) (updateCore_usage husers email _)
      dsimp only
      rwa [hkept]
  | coreReset email =>
      cases hstep
      obtain ⟨_, _, _, hkept, hsamples, _⟩ := updateCore_frame w email fun _ => (0, 0)
      refine h.keep hsamples (fun place r hr => ?_) (updateCore_usage husers email _)
      rwa [hkept]
  | nodeTraffic nodeId email bytes =>
      cases hstep
      exact h.keep rfl (fun _ _ hr => hr) fun _ _ => rfl
  | capture nodeId emails =>
      cases hstep
      refine h.keep rfl (fun place r hr => ?_) fun _ _ => rfl
      obtain ⟨hlt, _⟩ := List.getElem?_eq_some_iff.mp hr
      dsimp only
      rwa [List.getElem?_append_left hlt]
  | deliver place initializeAbsent =>
      obtain ⟨r, hr, rfl⟩ := Option.map_eq_some_iff.mp hstep
      simp only [Recognized, hr, Option.all_some, Bool.and_eq_true] at hok
      obtain ⟨horder, hrecognizable⟩ := hok
      rcases importReport_cases husers.emails place r initializeAbsent with
        ⟨ledgers, heq, _, hrows⟩ | ⟨ledgers, heq, hrestore⟩
      · rw [heq]
        intro id node
        dsimp only [usage]
        rcases restored_cases w.ledgers r.nodeId (id, node) with ⟨user, huser, hkey⟩ | hother
        · obtain ⟨rfl, rfl⟩ := Prod.mk.inj hkey
          rw [sampledBy_reported huser, hrows.reported user huser]
          cases hreport : reportOf r.items user.1 with
          | none => exact h user.2 r.nodeId
          | some c =>
              have hmem : user ∈ w.reported r :=
                List.mem_filter.mpr ⟨huser, by rw [hreport]; rfl⟩
              have hplace := List.all_eq_true.mp (List.all_eq_true.mp horder user hmem)
              refine (h user.2 r.nodeId).take hr (reportOf_items hreport) ?_ ?_
              · intro p r' hp hr'
                have hpmem := List.mem_of_head? hp
                obtain ⟨r'', hr'', hnode, hinst, hreading, hemail⟩ := hsampled _ p hpmem
                obtain ⟨row, hrow, hrowemail, hlive, _⟩ := Ledgers.mem_restored.mp huser
                rw [hr''] at hr'
                cases hr'
                refine ⟨hreports.ordered _ _ r' r (of_decide_eq_true (hplace p hpmem)) hr'' hr hnode,
                  hinst, ?_⟩
                rw [hreading, ← hemail row hrow hlive, hrowemail]
              · intro p hp hinst way
                have hnew := List.all_eq_true.mp hrecognizable user hmem
                rw [hp, Option.all_some, Bool.or_eq_true, decide_eq_true_eq] at hnew
                have hways := List.all_eq_true.mp (hnew.resolve_left hinst) way
                  (by cases way <;> decide)
                simpa using hways
        · have hscope : (id, "node:" ++ node).2 ≠ "node:" ++ r.nodeId ∨
              (id, "node:" ++ node).1 ∉ (w.ledgers.restored r.nodeId).map Prod.snd :=
            hother.imp_left fun hne h => hne (node_inj h)
          rw [sampledBy_other hother, hrows.others _ hscope]
          exact h id node
      · rw [heq]
        refine h.keep rfl (fun _ _ hr => hr) fun id node => ?_
        simp only [usage, hrestore]
  | replace nodeId =>
      cases hstep
      exact h.keep rfl (fun _ _ hr => hr) fun _ _ => rfl
  | promote id owner email =>
      obtain ⟨_, _, _, hkept, hsamples, husage, _⟩ := promoted_frame hstep
      exact h.keep hsamples (fun place r hr => by rwa [hkept]) fun _ _ => by rw [husage]
  | archive id =>
      obtain ⟨_, _, _, hkept, hsamples, husage, _⟩ := archived_frame hstep
      exact h.keep hsamples (fun place r hr => by rwa [hkept]) fun _ _ => by rw [husage]

end Counting

/-! ## Runs -/

section Runs

variable {digest : String → String} {s t : RestoreSystem} {es : List RestoreEvent}

/-- What every run keeps. -/
structure Inv (w : RestoreSystem) : Prop where
  users : w.Users
  reports : w.Reports
  sampled : w.Sampled

/-- The invariant holds in the beginning. -/
theorem Start.inv (h : s.Start) : s.Inv := by
  refine ⟨⟨h.emails, h.core, h.clock, fun id way => ?_⟩, ⟨fun place r hr => ?_, fun i j r r' _ hi => ?_⟩,
    fun k p hp => ?_⟩
  · rw [h.usage, h.gained]
    rfl
  · rw [h.reports] at hr
    cases hr
  · rw [h.reports] at hi
    cases hi
  · rw [h.samples] at hp
    cases hp

/-- In the beginning all usage is counted. -/
theorem Start.counted (h : s.Start) : s.Counted := by
  intro id node
  rw [h.samples, h.usage]
  rfl

/-- One step keeps the invariant. -/
theorem Inv.step {event : RestoreEvent} {w w' : RestoreSystem} (h : w.Inv)
    (hstep : Step digest w event w') : w'.Inv :=
  ⟨(h.users.step hstep).1, h.reports.step hstep, h.sampled.step h.users hstep⟩

/-- A run keeps the invariant. -/
theorem Inv.run (h : s.Inv) (hrun : Run (Step digest) s es t) : t.Inv :=
  hrun.invariant h fun _ _ _ ha hstep => ha.step hstep

/-- No total goes down, and nothing happens to a user that is not live any more. -/
theorem Grown.run (h : s.Inv) (hrun : Run (Step digest) s es t) : Grown s t :=
  hrun.related h (fun _ _ _ ha hstep => ha.step hstep) Grown.refl (fun _ _ _ => Grown.trans)
    fun _ _ _ ha hstep => (ha.users.step hstep).2

/-- The totals after a run that meets the condition at every import. -/
theorem Counted.run (h : s.Start)
    (hrun : Run (Guarded (Step digest) Recognized) s es t) : t.Counted := by
  have hstep : ∀ a e b, (a.Inv ∧ a.Counted) → Guarded (Step digest) Recognized a e b →
      b.Inv ∧ b.Counted := by
    rintro a e b ⟨hinv, hcounted⟩ ⟨hstep, hok⟩
    exact ⟨hinv.step hstep, hcounted.step hinv.users hinv.reports hinv.sampled hok hstep⟩
  exact (hrun.invariant ⟨h.inv, h.counted⟩ hstep).2

/-- A report from before the stored one adds nothing. -/
theorem observed_earlier {l : Ledgers} (h : l.restore.coreEmails.Nodup) {nodeId id : String}
    {items : List TrafficItem} {now : ℕ} {initializeAbsent : Bool} {row : RestoreUsageRow}
    (hrow : l.restore.usage.get? (id, "node:" ++ nodeId) = some row) (hearlier : now < row.updatedAt) :
    (observed digest nodeId items now initializeAbsent l).2.restore.usage.get?
      (id, "node:" ++ nodeId) = some row := by
  have hspec : Tx.wp (observed digest nodeId items now initializeAbsent) _ _ l := observed_spec h
  rcases hrun : observed digest nodeId items now initializeAbsent l with ⟨f | result, m⟩
  · have hraised := Tx.wp_error hspec hrun
    rw [hraised]
    exact hrow
  · have hreturned := Tx.wp_ok hspec hrun
    rcases restored_cases l nodeId (id, nodeId) with ⟨user, huser, hkey⟩ | hother
    · obtain ⟨rfl, _⟩ := Prod.mk.inj hkey
      rw [hreturned.2.reported user huser, hrow]
      cases reportOf items user.1 with
      | none => rfl
      | some c =>
          rw [Option.elim_some, takeSample, if_pos]
          exact decide_eq_true hearlier
    · rw [hreturned.2.others, hrow]
      exact hother.imp_left fun hne h => hne (node_inj h)

/-- One imported user, served by the Hub and by one Node. -/
def oneUser : RestoreSystem where
  ledgers :=
    { hub :=
        { nodeInbounds := [⟨"node", 1, 7⟩]
          managedClients := .empty
          clients := .empty
          periods := .empty
          usage := .empty
          trafficLedger := .empty }
      restore :=
        { subscriptions := Table.empty.insert "rst" ⟨"user", [1], 0, 0, 0, "", 0, 0⟩
          usage := .empty } }
  core := Table.empty.insert "user" (0, 0)
  clock := 1
  installation := fun _ => 0
  counters := fun _ _ _ => 0
  reports := []
  samples := fun _ => []
  gained := fun _ _ => 0

theorem oneUser_start : oneUser.Start := by
  refine ⟨rfl, by decide, fun e c hc => ?_, by decide, rfl, fun _ => rfl, fun _ _ => rfl⟩
  have hrow : (e, c) ∈ [("user", ((0, 0) : ℤ × ℤ))] := Table.get?_eq_some_iff.mp hc
  rw [List.mem_singleton, Prod.mk.injEq] at hrow
  rw [hrow.2]
  exact ⟨le_refl 0, le_refl 0⟩

/-- The installation counts 100 bytes and is replaced; the new one reports some bytes. -/
def replacedAt (bytes : ℕ) : List RestoreEvent :=
  [.coreTraffic "user" fun _ => 5, .nodeTraffic "node" "user" fun _ => 100, .capture "node" ["user"],
    .deliver 0 false, .replace "node", .tick, .nodeTraffic "node" "user" fun _ => bytes,
    .capture "node" ["user"], .deliver 1 false]

end Runs

end RestoreSystem

end Nodes
end DarkXray
