import DarkXray.Access.Accounts
import DarkXray.Core.Clients
import DarkXray.Nodes.RestoreUsage

/-!
# Eligibility of the imported users

An imported user may be served only while the data that was imported with it are confirmed,
and neither its time nor its volume is used up.  {lit}`reconcile` writes this into the enable
bit of its core client.  Others write that bit as well: two flags remember what
{lit}`reconcile` has left there, and that somebody else has disabled the client since.

Main results:

- Theorem {lit}`decision_eligible_iff`: who is eligible.
- Theorem {lit}`judge_again`: what has been judged is judged in the same way.
- Theorems {lit}`reconcile_user` and {lit}`reconcile_core_other`: what {lit}`reconcile` does to a
  live user, and what it leaves alone.
-/

namespace DarkXray
namespace Nodes

open Library

/-! ## Tables -/

/-- {lit}`metadata_state`. -/
inductive MetadataState where
  | review
  | verified
  | manual
  | legacySaved
deriving DecidableEq, Repr

/-- What {lit}`decision` returns. -/
inductive Eligibility where
  | promoted
  | identityMissing
  | needsReview
  | suspended
  | expired
  | exhausted
  | eligible
deriving DecidableEq, Repr

/-- The columns of {lit}`restore_subscriptions` that eligibility depends on. -/
structure RestoreUser where
  coreEmail : String
  legacyUpload : ℤ
  legacyDownload : ℤ
  legacyTotal : ℤ
  legacyExpire : ℤ
  scanStatus : String
  scanError : String
  enabled : Bool
  promotedAt : ℚ
  deletedAt : ℚ
  createdAt : ℚ
  updatedAt : ℚ
deriving DecidableEq, Repr

/-- The user is neither promoted nor archived. -/
def RestoreUser.live (r : RestoreUser) : Bool :=
  r.promotedAt = 0 && r.deletedAt = 0

/-- A row of {lit}`restore_safety`. -/
structure SafetyRow where
  metadataState : MetadataState
  checkedAt : ℚ
  note : String
  expectedEnable : Bool
  externalDisabled : Bool
  /-- The last decision; there is none in a new row. -/
  decision : Option Eligibility
  decisionAt : ℚ
deriving DecidableEq, Repr

/-- The source data of a user. -/
structure SourceData where
  upload : ℤ
  download : ℤ
  total : ℤ
  expire : ℤ
deriving DecidableEq, Repr

/-- The text and the detail of a row of {lit}`restore_events`. -/
inductive SafetyNote where
  /-- {lit}`eligibility.changed`. -/
  | eligibility (status : Eligibility) (enabled : Bool)
  /-- {lit}`metadata.reviewed`. -/
  | reviewed (before after : SourceData) (note : String)
  /-- {lit}`suspension.changed`. -/
  | suspension (suspended : Bool)
deriving DecidableEq, Repr

/-- A row of {lit}`restore_events`. -/
structure SafetyLog where
  restoreId : String
  note : SafetyNote
  time : ℚ
deriving DecidableEq, Repr

/-- What eligibility reads and writes. -/
structure SafetyStore where
  users : Table String RestoreUser
  safety : Table String SafetyRow
  usage : RestoreUsage
  core : Table String Core.ClientRow
  log : List SafetyLog

/-- The usage of a user over all scopes. -/
def SafetyStore.used (s : SafetyStore) (id : String) : ℤ :=
  ((s.usage.rows.filter fun r => r.1.1 = id).map fun r => r.2.up + r.2.down).sum

/-- The core client of a user. -/
def SafetyStore.client (s : SafetyStore) (r : RestoreUser) : Option Core.Record :=
  (s.core.get? r.coreEmail).map Core.ClientRow.body

/-- {lit}`bool(client.get('enable', True))`. -/
def enabledIn (client : Core.Record) : Bool :=
  (client.doc.getD "enable" (Library.Doc.bool true)).truthy

/-- {lit}`client['enable'] = desired`. -/
def withEnable (client : Core.Record) (enabled : Bool) : Core.Record :=
  client.set "enable" (Library.Doc.bool enabled)

/-! ## The decision -/

/-- {lit}`MAX_BYTES`. -/
def maxBytes : ℤ :=
  2 ^ 63 - 1

/-- {lit}`MAX_EXPIRE`. -/
def maxExpire : ℤ :=
  253402300799

/-- {lit}`_valid_numbers`. -/
def validNumbers (r : RestoreUser) : Bool :=
  decide (0 ≤ r.legacyUpload ∧ r.legacyUpload ≤ maxBytes) &&
    decide (0 ≤ r.legacyDownload ∧ r.legacyDownload ≤ maxBytes) &&
    decide (0 ≤ r.legacyTotal ∧ r.legacyTotal ≤ maxBytes) &&
    decide (0 ≤ r.legacyExpire ∧ r.legacyExpire ≤ maxExpire) &&
    decide (r.legacyUpload + r.legacyDownload ≤ maxBytes)

/-- {lit}`decision`; of the metadata only the state and the external flag are read. -/
def decision (row : RestoreUser) (state : MetadataState) (external : Bool)
    (client : Option Core.Record) (used : ℤ) (now : ℚ) : Eligibility :=
  if 0 < row.promotedAt then .promoted
  else if client.isNone then .identityMissing
  else if !validNumbers row || state ∉ [MetadataState.verified, .manual, .legacySaved] then
    .needsReview
  else if !row.enabled || external then .suspended
  else if row.legacyExpire ≠ 0 ∧ (row.legacyExpire : ℚ) ≤ now then .expired
  else if row.legacyTotal ≠ 0 ∧ row.legacyTotal ≤ row.legacyUpload + row.legacyDownload + used then
    .exhausted
  else .eligible

/-- Who may be served: the data are valid and confirmed, nobody has suspended the user, and
neither its time nor its volume is used up. -/
structure Entitled (row : RestoreUser) (state : MetadataState) (external : Bool) (used : ℤ)
    (now : ℚ) : Prop where
  numbers : validNumbers row = true
  reviewed : state ≠ .review
  enabled : row.enabled = true
  external : external = false
  time : row.legacyExpire = 0 ∨ now < row.legacyExpire
  volume : row.legacyTotal = 0 ∨ row.legacyUpload + row.legacyDownload + used < row.legacyTotal

/-- Who is eligible. -/
theorem decision_eligible_iff {row : RestoreUser} {state : MetadataState} {external : Bool}
    {client : Core.Record} {used : ℤ} {now : ℚ} (hlive : row.live = true) :
    decision row state external (some client) used now = .eligible ↔
      Entitled row state external used now := by
  have hpromoted : ¬ 0 < row.promotedAt := by
    simp only [RestoreUser.live, Bool.and_eq_true, decide_eq_true_eq] at hlive
    rw [hlive.1]
    exact lt_irrefl 0
  have hstate : state ∉ [MetadataState.verified, .manual, .legacySaved] ↔ state = .review := by
    cases state <;> decide
  unfold decision
  rw [if_neg hpromoted, if_neg (by simp)]
  constructor
  · intro h
    split at h
    · cases h
    rename_i hreview
    split at h
    · cases h
    rename_i hsuspended
    split at h
    · cases h
    rename_i hexpired
    split at h
    · cases h
    rename_i hexhausted
    simp only [Bool.or_eq_true, Bool.not_eq_true', decide_eq_true_eq, not_or, hstate] at hreview
    simp only [Bool.or_eq_true, Bool.not_eq_true', not_or, Bool.not_eq_true,
      Bool.not_eq_false] at hsuspended
    refine ⟨by simpa using hreview.1, hreview.2, hsuspended.1, hsuspended.2, ?_, ?_⟩
    · by_contra hno
      push Not at hno
      exact hexpired hno
    · by_contra hno
      push Not at hno
      exact hexhausted hno
  · rintro ⟨hnumbers, hreviewed, henabled, hexternal, htime, hvolume⟩
    rw [if_neg, if_neg, if_neg, if_neg]
    · rintro ⟨hne, hle⟩
      rcases hvolume with hzero | hlt
      · exact hne hzero
      · omega
    · rintro ⟨hne, hle⟩
      rcases htime with hzero | hlt
      · exact hne hzero
      · exact absurd hle (not_le.mpr hlt)
    · simp [henabled, hexternal]
    · cases state with
      | review => exact (hreviewed rfl).elim
      | verified | manual | legacySaved => simp [hnumbers]

/-! ## Seeding -/

/-- Whether SQLite takes {lit}`COALESCE(json_extract(body,'$.enable'),1)` for true; what it takes
a text for is left open. -/
def extractedEnable (textTrue : String → Bool) : Option Library.Doc → Bool
  | none => true
  | some (.atom .null) => true
  | some (.atom (.bool b)) => b
  | some (.atom (.int n)) => n ≠ 0
  | some (.atom (.str s)) => textTrue s
  | some (.list _) => false
  | some (.dict _) => false

variable (textTrue : String → Bool)

/-- The new row of a user in {lit}`_seed_safety`. -/
def seededRow (s : SafetyStore) (r : RestoreUser) : SafetyRow :=
  let enable := (s.client r).all fun c => extractedEnable textTrue (c.doc.get? "enable")
  { metadataState := if r.scanStatus = "verified" then .verified else .review
    checkedAt := r.createdAt
    note := ""
    expectedEnable := enable
    externalDisabled := !enable
    decision := none
    decisionAt := 0 }

/-- {lit}`INSERT OR IGNORE} of one user. -/
def seedOne (s : SafetyStore) (t : Table String SafetyRow) (r : String × RestoreUser) :
    Table String SafetyRow :=
  if r.2.deletedAt = 0 then t.insert r.1 (seededRow textTrue s r.2) else t

/-- {lit}`_seed_safety`. -/
def seedSafety (s : SafetyStore) : SafetyStore :=
  { s with safety := s.users.rows.foldl (seedOne textTrue s) s.safety }

/-- {lit}`missing`: a live user has no row yet. -/
def SafetyStore.unseeded (s : SafetyStore) : Bool :=
  s.users.rows.any fun r => r.2.live && (s.safety.get? r.1).isNone

/-- The store after the first lines of {lit}`reconcile`. -/
def SafetyStore.seeded (s : SafetyStore) : SafetyStore :=
  if s.unseeded then seedSafety textTrue s else s

/-! ## Reconciliation -/

/-- What {lit}`reconcile` makes of one user. -/
structure Judged where
  id : String
  user : RestoreUser
  safety : SafetyRow
  client : Option Core.Record
  state : MetadataState
  external : Bool
  reason : Eligibility

namespace Judged

/-- {lit}`desired`. -/
def desired (j : Judged) : Bool :=
  j.reason = .eligible

/-- {lit}`core_change`. -/
def coreChange (j : Judged) : Bool :=
  j.client.any fun c => enabledIn c != j.desired

/-- {lit}`metadata_change`. -/
def metadataChange (j : Judged) : Bool :=
  j.safety.decision ≠ some j.reason || j.safety.expectedEnable != j.desired ||
    j.safety.externalDisabled != j.external || j.safety.metadataState ≠ j.state

/-- The row after the judgement. -/
def newSafety (j : Judged) (now : ℚ) (old : SafetyRow) : SafetyRow :=
  { old with
    metadataState := j.state
    expectedEnable := j.desired
    externalDisabled := j.external
    decision := some j.reason
    decisionAt := now }

end Judged

/-- Judge one user: whether somebody else has disabled its client, and what is decided then. -/
def judge (now : ℚ) (used : ℤ) (id : String) (user : RestoreUser) (safety : SafetyRow)
    (client : Option Core.Record) : Judged :=
  let state :=
    if safety.metadataState = .review ∧ user.scanStatus = "verified" then MetadataState.verified
    else safety.metadataState
  let external := safety.externalDisabled ||
    (client.any (fun c => !enabledIn c) && safety.expectedEnable)
  { id, user, safety, client, state, external
    reason := decision user state external client used now }

/-- {lit}`rows`: the live users, each judged. -/
def SafetyStore.judged (now : ℚ) (s : SafetyStore) : List Judged :=
  s.users.rows.filterMap fun r =>
    if r.2.live then
      (s.safety.get? r.1).map fun safety => judge now (s.used r.1) r.1 r.2 safety (s.client r.2)
    else none

/-- {lit}`UPDATE core_clients SET body=?`. -/
def writeCore (t : Table String Core.ClientRow) (j : Judged) : Table String Core.ClientRow :=
  if j.coreChange then
    t.update j.user.coreEmail fun row =>
      { row with body := withEnable (j.client.getD row.body) j.desired }
  else t

/-- {lit}`UPDATE restore_safety`. -/
def writeSafety (now : ℚ) (t : Table String SafetyRow) (j : Judged) : Table String SafetyRow :=
  if j.metadataChange then t.update j.id (j.newSafety now) else t

/-- What is noted of a judgement. -/
def noteOf (now : ℚ) (j : Judged) : List SafetyLog :=
  if j.metadataChange then [⟨j.id, .eligibility j.reason j.desired, now⟩] else []

/-- Write one pending judgement. -/
def writeJudged (now : ℚ) (s : SafetyStore) (j : Judged) : SafetyStore :=
  { s with
    core := writeCore s.core j
    safety := writeSafety now s.safety j
    log := s.log ++ noteOf now j }

/-- {lit}`r['email']`. -/
def emailOf (r : Core.Record) : Option String :=
  (r.doc.get? "email").bind Library.Doc.str?

/-- {lit}`record_map[email]['enable'] = desired`: of several records with one email the last one is
in the map. -/
def setRecord (email : String) (desired : Bool) : List Core.Record → List Core.Record
  | [] => []
  | r :: rest =>
      if emailOf r = some email ∧ ∀ r' ∈ rest, emailOf r' ≠ some email then
        withEnable r desired :: rest
      else r :: setRecord email desired rest

/-- What {lit}`reconcile` returns. -/
structure Reconciled where
  store : SafetyStore
  records : List Core.Record
  changed : ℕ
  paused : Bool

/-- {lit}`reconcile`. -/
def reconcile (writesEnabled : Bool) (now : ℚ) (records : List Core.Record) (s : SafetyStore) :
    Reconciled :=
  if writesEnabled then
    let s := s.seeded textTrue
    let pending := (s.judged now).filter fun j => j.coreChange || j.metadataChange
    { store := pending.foldl (writeJudged now) s
      records := (s.judged now).foldl (fun l j => setRecord j.user.coreEmail j.desired l) records
      changed := (pending.filter Judged.coreChange).length
      paused := false }
  else ⟨s, records, 0, true⟩

/-! ## What the judgements are -/

section Judgements

variable {now : ℚ} {used : ℤ} {id : String} {user : RestoreUser} {safety : SafetyRow}
  {client : Option Core.Record}

/-- A record that is switched has the switch. -/
@[simp]
theorem enabledIn_withEnable (c : Core.Record) (b : Bool) : enabledIn (withEnable c b) = b := by
  unfold enabledIn withEnable Core.Record.set Library.Doc.getD
  rw [Library.Doc.get?_set c.isDict, if_pos rfl]
  rfl

/-- The client after a judgement. -/
def Judged.newClient (j : Judged) (c : Core.Record) : Core.Record :=
  if enabledIn c != j.desired then withEnable c j.desired else c

/-- A new client is enabled as it was decided. -/
@[simp]
theorem enabledIn_newClient (j : Judged) (c : Core.Record) :
    enabledIn (j.newClient c) = j.desired := by
  unfold Judged.newClient
  split
  · exact enabledIn_withEnable c j.desired
  · rename_i h
    simpa using h

/-- The row that a judgement leaves. -/
def Judged.leftSafety (j : Judged) (now : ℚ) : SafetyRow :=
  if j.metadataChange then j.newSafety now j.safety else j.safety

/-- A judgement leaves what it has judged. -/
theorem leftSafety_eq (j : Judged) (now : ℚ) :
    (j.leftSafety now).metadataState = j.state ∧ (j.leftSafety now).externalDisabled = j.external ∧
      (j.leftSafety now).expectedEnable = j.desired ∧
      (j.leftSafety now).decision = some j.reason := by
  unfold Judged.leftSafety
  split
  · exact ⟨rfl, rfl, rfl, rfl⟩
  · rename_i h
    simp only [Judged.metadataChange, ne_eq, decide_not, Bool.or_eq_true, Bool.not_eq_true',
      decide_eq_false_iff_not, bne_iff_ne, not_or, not_not] at h
    exact ⟨h.2, h.1.2, h.1.1.2, h.1.1.1⟩

/-- The decision does not depend on what is in a client. -/
theorem decision_congr {row : RestoreUser} {state : MetadataState} {external : Bool}
    {client client' : Option Core.Record} (h : client.isNone = client'.isNone) :
    decision row state external client used now = decision row state external client' used now := by
  unfold decision
  rw [h]

/-- What has been judged is judged in the same way again, and nothing has to be written. -/
theorem judge_again (now : ℚ) (used : ℤ) (id : String) (user : RestoreUser) (safety : SafetyRow)
    (client : Option Core.Record) :
    let j := judge now used id user safety client
    let j' := judge now used id user (j.leftSafety now) (client.map j.newClient)
    j'.coreChange = false ∧ j'.metadataChange = false ∧ j'.desired = j.desired := by
  intro j j'
  obtain ⟨hstate, hexternal, hexpected, hdecision⟩ := leftSafety_eq j now
  have hstate' : j'.state = j.state := by
    have hj' : j'.state = if (j.leftSafety now).metadataState = .review ∧
        user.scanStatus = "verified" then MetadataState.verified
      else (j.leftSafety now).metadataState := rfl
    have hj : j.state = if safety.metadataState = .review ∧ user.scanStatus = "verified" then
      MetadataState.verified else safety.metadataState := rfl
    rw [hj', hstate]
    by_cases h : j.state = .review ∧ user.scanStatus = "verified"
    · rw [if_pos h]
      rw [hj] at h ⊢
      split
      · rfl
      · rename_i hno
        rw [if_neg hno] at h
        exact (hno h).elim
    · rw [if_neg h]
  have hexternal' : j'.external = j.external := by
    have hj' : j'.external = ((j.leftSafety now).externalDisabled ||
      ((client.map j.newClient).any (fun c => !enabledIn c) &&
        (j.leftSafety now).expectedEnable)) := rfl
    rw [hj', hexternal, hexpected]
    cases client with
    | none => simp
    | some c =>
        simp only [Option.map_some, Option.any_some, enabledIn_newClient]
        cases j.desired <;> simp
  have hreason : j'.reason = j.reason := by
    have hj' : j'.reason =
      decision user j'.state j'.external (client.map j.newClient) used now := rfl
    have hj : j.reason = decision user j.state j.external client used now := rfl
    rw [hj', hj, hstate', hexternal']
    apply decision_congr
    cases client <;> rfl
  have hdesired : j'.desired = j.desired := by
    unfold Judged.desired
    rw [hreason]
  refine ⟨?_, ?_, hdesired⟩
  · unfold Judged.coreChange
    rw [hdesired]
    have hclient : j'.client = client.map j.newClient := rfl
    rw [hclient]
    cases client with
    | none => rfl
    | some c => simp
  · unfold Judged.metadataChange
    have hsafety : j'.safety = j.leftSafety now := rfl
    rw [hsafety, hdecision, hexpected, hexternal, hstate, hreason, hdesired, hexternal', hstate']
    simp

end Judgements

/-! ## What reconciliation does to every row -/

section Reconciliation

variable {s : SafetyStore} {now : ℚ} {id : String} {user : RestoreUser} {safety : SafetyRow}

/-- A verdict is given for each live user that has a safety row. -/
theorem mem_judged {j : Judged} : j ∈ s.judged now ↔
    ∃ id user safety, (id, user) ∈ s.users.rows ∧ user.live = true ∧
      s.safety.get? id = some safety ∧
        j = judge now (s.used id) id user safety (s.client user) := by
  unfold SafetyStore.judged
  rw [List.mem_filterMap]
  constructor
  · rintro ⟨⟨id, user⟩, hmem, hj⟩
    split at hj
    · rename_i hlive
      obtain ⟨safety, hsafety, rfl⟩ := Option.map_eq_some_iff.mp hj
      exact ⟨id, user, safety, hmem, hlive, hsafety, rfl⟩
    · cases hj
  · rintro ⟨id, user, safety, hmem, hlive, hsafety, rfl⟩
    refine ⟨(id, user), hmem, ?_⟩
    rw [if_pos hlive, hsafety]
    rfl

/-- What is kept of a list, by a part of its members. -/
theorem map_filterMap_sublist {α β γ : Type} {f : α → Option β} {g : β → γ} {h : α → γ}
    (hgh : ∀ a b, f a = some b → g b = h a) (l : List α) :
    ((l.filterMap f).map g).Sublist (l.map h) := by
  induction l with
  | nil => exact List.Sublist.slnil
  | cons a l ih =>
      cases hf : f a with
      | none =>
          rw [List.filterMap_cons_none hf]
          exact ih.cons (h a)
      | some b =>
          rw [List.filterMap_cons_some hf, List.map_cons, List.map_cons, hgh a b hf]
          exact ih.cons_cons (h a)

/-- A user has one verdict. -/
theorem judged_ids (s : SafetyStore) (now : ℚ) : ((s.judged now).map Judged.id).Nodup := by
  refine List.Nodup.sublist (map_filterMap_sublist (h := Prod.fst) ?_ s.users.rows)
    s.users.nodupKeys
  intro r j hj
  split at hj
  · obtain ⟨safety, -, rfl⟩ := Option.map_eq_some_iff.mp hj
    rfl
  · cases hj

/-- Where the emails of the users differ, so do those of the verdicts. -/
theorem judged_emails (hemails : (s.users.rows.map fun r => r.2.coreEmail).Nodup) (now : ℚ) :
    ((s.judged now).map fun j => j.user.coreEmail).Nodup := by
  refine List.Nodup.sublist (map_filterMap_sublist (h := fun r => r.2.coreEmail) ?_ s.users.rows)
    hemails
  intro r j hj
  split at hj
  · obtain ⟨safety, -, rfl⟩ := Option.map_eq_some_iff.mp hj
    rfl
  · cases hj

/-- What has to be written is written table by table. -/
theorem foldl_writeJudged (js : List Judged) (s : SafetyStore) :
    js.foldl (writeJudged now) s = { s with
      core := js.foldl writeCore s.core
      safety := js.foldl (writeSafety now) s.safety
      log := s.log ++ js.flatMap (noteOf now) } := by
  induction js generalizing s with
  | nil => simp
  | cons j js ih => simp [ih, writeJudged]

/-- Judgements that change nothing need not be written. -/
theorem foldl_pending (js : List Judged) (s : SafetyStore) :
    (js.filter fun j => j.coreChange || j.metadataChange).foldl (writeJudged now) s =
      js.foldl (writeJudged now) s := by
  induction js generalizing s with
  | nil => rfl
  | cons j js ih =>
      rw [List.filter_cons]
      split
      · rw [List.foldl_cons, List.foldl_cons, ih]
      · rename_i h
        rw [List.foldl_cons, ih]
        simp only [Bool.or_eq_true, not_or, Bool.not_eq_true] at h
        have hsame : writeJudged now s j = s := by
          unfold writeJudged writeCore writeSafety noteOf
          simp [h.1, h.2]
        rw [hsame]

/-- The row of a judged user. -/
theorem get?_writeSafety (js : List Judged) (hids : (js.map Judged.id).Nodup) {j : Judged}
    (hj : j ∈ js) {t : Table String SafetyRow} (ht : t.get? j.id = some j.safety) :
    (js.foldl (writeSafety now) t).get? j.id = some (j.leftSafety now) := by
  have hfold : js.foldl (writeSafety now) t = (js.map fun j => (j.id, j)).foldl
      (fun t x => if x.2.metadataChange then t.update x.1 (x.2.newSafety now) else t) t := by
    rw [List.foldl_map]
    rfl
  rw [hfold, Table.get?_foldl_of_mem (k := j.id) (b := j)
    (f := fun _ j row => row.map fun row => if j.metadataChange then j.newSafety now row else row),
    ht]
  · unfold Judged.leftSafety
    rfl
  · intro t x k hk
    split
    · rw [Table.get?_update, if_neg hk]
    · rfl
  · intro t x
    split
    · rw [Table.get?_update, if_pos rfl]
    · rw [Option.map_id']
  · rw [List.map_map]
    exact hids
  · exact List.mem_map_of_mem hj

/-- The core client of a judged user. -/
theorem get?_writeCore (js : List Judged) (hemails : (js.map fun j => j.user.coreEmail).Nodup)
    {j : Judged} (hj : j ∈ js) {t : Table String Core.ClientRow}
    (ht : j.client = (t.get? j.user.coreEmail).map Core.ClientRow.body) :
    (js.foldl writeCore t).get? j.user.coreEmail =
      (t.get? j.user.coreEmail).map fun row => { row with body := j.newClient row.body } := by
  have hfold : js.foldl writeCore t = (js.map fun j => (j.user.coreEmail, j)).foldl
      (fun t x => if x.2.coreChange then t.update x.1 fun row =>
        { row with body := withEnable (x.2.client.getD row.body) x.2.desired } else t) t := by
    rw [List.foldl_map]
    rfl
  rw [hfold, Table.get?_foldl_of_mem (k := j.user.coreEmail) (b := j)
    (f := fun _ j row => row.map fun row => if j.coreChange then
      { row with body := withEnable (j.client.getD row.body) j.desired } else row)]
  · rw [ht]
    cases hrow : t.get? j.user.coreEmail with
    | none => rfl
    | some row =>
        rw [hrow, Option.map_some] at ht
        simp only [Option.map_some, Option.getD_some, Judged.coreChange, ht, Option.any_some,
          Judged.newClient]
        split <;> rfl
  · intro t x k hk
    split
    · rw [Table.get?_update, if_neg hk]
    · rfl
  · intro t x
    split
    · rw [Table.get?_update, if_pos rfl]
    · rw [Option.map_id']
  · rw [List.map_map]
    exact hemails
  · exact List.mem_map_of_mem hj

/-- The core clients of others. -/
theorem get?_writeCore_other {email : String} (js : List Judged)
    (hemail : ∀ j ∈ js, j.user.coreEmail ≠ email) (t : Table String Core.ClientRow) :
    (js.foldl writeCore t).get? email = t.get? email := by
  induction js generalizing t with
  | nil => rfl
  | cons j js ih =>
      rw [List.foldl_cons, ih fun j' hj' => hemail j' (List.mem_cons_of_mem _ hj')]
      unfold writeCore
      split
      · rw [Table.get?_update, if_neg (Ne.symm (hemail j List.mem_cons_self))]
      · rfl

/-- What reconciliation does: it writes the judgements over the seeded tables. -/
theorem reconcile_store (records : List Core.Record) (s : SafetyStore) :
    (reconcile textTrue true now records s).store = { s.seeded textTrue with
      core := ((s.seeded textTrue).judged now).foldl writeCore (s.seeded textTrue).core
      safety := ((s.seeded textTrue).judged now).foldl (writeSafety now)
        (s.seeded textTrue).safety
      log := (s.seeded textTrue).log ++ ((s.seeded textTrue).judged now).flatMap (noteOf now) } := by
  unfold reconcile
  rw [if_pos rfl]
  dsimp only
  rw [foldl_pending, foldl_writeJudged]

@[simp]
theorem seeded_users (s : SafetyStore) : (s.seeded textTrue).users = s.users := by
  unfold SafetyStore.seeded
  split <;> rfl

@[simp]
theorem seeded_core (s : SafetyStore) : (s.seeded textTrue).core = s.core := by
  unfold SafetyStore.seeded
  split <;> rfl

@[simp]
theorem seeded_usage (s : SafetyStore) : (s.seeded textTrue).usage = s.usage := by
  unfold SafetyStore.seeded
  split <;> rfl

@[simp]
theorem seeded_log (s : SafetyStore) : (s.seeded textTrue).log = s.log := by
  unfold SafetyStore.seeded
  split <;> rfl

/-- Rows that are there are not seeded. -/
theorem seeded_of_some (h : s.safety.get? id = some safety) :
    (s.seeded textTrue).safety.get? id = some safety := by
  unfold SafetyStore.seeded seedSafety
  split
  · generalize s.users.rows = rows
    suffices hfold : ∀ t : Table String SafetyRow, t.get? id = some safety →
        (rows.foldl (seedOne textTrue s) t).get? id = some safety from hfold _ h
    induction rows with
    | nil => exact fun t ht => ht
    | cons r rows ih =>
        intro t ht
        apply ih
        unfold seedOne
        split
        · exact Table.get?_insert_of_some ht _ _
        · exact ht
  · exact h

/-- Seeding drops no row and adds the one of the user. -/
theorem isSome_seedOne (s : SafetyStore) (t : Table String SafetyRow) (r : String × RestoreUser)
    (h : (t.get? id).isSome ∨ (r.1 = id ∧ r.2.deletedAt = 0)) :
    ((seedOne textTrue s t r).get? id).isSome := by
  unfold seedOne
  by_cases hdeleted : r.2.deletedAt = 0
  · rw [if_pos hdeleted]
    cases ht : t.get? id with
    | some row =>
        rw [Table.get?_insert_of_some ht]
        rfl
    | none =>
        rw [ht] at h
        obtain ⟨rfl, -⟩ := h.resolve_left (by simp)
        rw [Table.get?_insert ht, if_pos rfl]
        rfl
  · rw [if_neg hdeleted]
    exact h.resolve_right fun hr => hdeleted hr.2

/-- After the seeding every live user has a row. -/
theorem seeded_live (hrow : s.users.get? id = some user) (hlive : user.live = true) :
    ∃ safety, (s.seeded textTrue).safety.get? id = some safety := by
  have hmem : (id, user) ∈ s.users.rows := Table.get?_eq_some_iff.mp hrow
  have hdeleted : user.deletedAt = 0 := by
    simp only [RestoreUser.live, Bool.and_eq_true, decide_eq_true_eq] at hlive
    exact hlive.2
  apply Option.isSome_iff_exists.mp
  unfold SafetyStore.seeded
  split
  · unfold seedSafety
    dsimp only
    generalize s.safety = t
    revert hmem
    generalize s.users.rows = rows
    suffices hfold : ∀ t : Table String SafetyRow, ((t.get? id).isSome ∨ (id, user) ∈ rows) →
        ((rows.foldl (seedOne textTrue s) t).get? id).isSome from fun hmem => hfold t (Or.inr hmem)
    induction rows with
    | nil => exact fun t ht => ht.resolve_right (List.not_mem_nil)
    | cons r rows ih =>
        intro t ht
        apply ih
        rcases ht with hsome | hmem
        · exact Or.inl (isSome_seedOne textTrue s t r (Or.inl hsome))
        · rcases List.mem_cons.mp hmem with rfl | hrest
          · exact Or.inl (isSome_seedOne textTrue s t _ (Or.inr ⟨rfl, hdeleted⟩))
          · exact Or.inr hrest
  · rename_i hunseeded
    by_contra hnone
    apply hunseeded
    unfold SafetyStore.unseeded
    rw [List.any_eq_true]
    refine ⟨(id, user), hmem, ?_⟩
    rw [Bool.and_eq_true]
    exact ⟨hlive, by simpa using hnone⟩

/-- What reconciliation does to a live user: it is judged, and the judgement is written. -/
theorem reconcile_user (now : ℚ) (records : List Core.Record)
    (hemails : (s.users.rows.map fun r => r.2.coreEmail).Nodup)
    (hrow : s.users.get? id = some user) (hlive : user.live = true) :
    ∃ safety, (s.seeded textTrue).safety.get? id = some safety ∧
      (reconcile textTrue true now records s).store.safety.get? id =
        some ((judge now (s.used id) id user safety (s.client user)).leftSafety now) ∧
      (reconcile textTrue true now records s).store.core.get? user.coreEmail =
        (s.core.get? user.coreEmail).map fun row => { row with
          body := (judge now (s.used id) id user safety (s.client user)).newClient row.body } := by
  obtain ⟨safety, hsafety⟩ := seeded_live textTrue hrow hlive
  have hused : (s.seeded textTrue).used id = s.used id := by
    unfold SafetyStore.used
    rw [seeded_usage]
  have hclient : (s.seeded textTrue).client user = s.client user := by
    unfold SafetyStore.client
    rw [seeded_core]
  have hmem : judge now (s.used id) id user safety (s.client user) ∈
      (s.seeded textTrue).judged now := by
    refine mem_judged.mpr ⟨id, user, safety, ?_, hlive, hsafety, ?_⟩
    · rw [seeded_users]
      exact Table.get?_eq_some_iff.mp hrow
    · rw [hused, hclient]
  have hemails' : ((s.seeded textTrue).users.rows.map fun r => r.2.coreEmail).Nodup := by
    rw [seeded_users]
    exact hemails
  refine ⟨safety, hsafety, ?_, ?_⟩
  · rw [reconcile_store]
    exact get?_writeSafety _ (judged_ids _ _) hmem hsafety
  · rw [reconcile_store]
    have hcore := get?_writeCore _ (judged_emails hemails' now) hmem
      (t := (s.seeded textTrue).core) (by rw [seeded_core]; rfl)
    rw [seeded_core] at hcore
    dsimp only
    rw [seeded_core]
    exact hcore

/-- No core client changes that is not a live user's. -/
theorem reconcile_core_other {email : String} (now : ℚ) (records : List Core.Record)
    (hother : ∀ id user, s.users.get? id = some user → user.live = true →
      user.coreEmail ≠ email) :
    (reconcile textTrue true now records s).store.core.get? email = s.core.get? email := by
  rw [reconcile_store]
  dsimp only
  rw [seeded_core]
  apply get?_writeCore_other
  intro j hj
  obtain ⟨id, user, safety, hmem, hlive, -, rfl⟩ := mem_judged.mp hj
  rw [seeded_users] at hmem
  exact hother id user (Table.get?_eq_some_iff.mpr hmem) hlive

@[simp]
theorem reconcile_users (records : List Core.Record) (s : SafetyStore) :
    (reconcile textTrue true now records s).store.users = s.users := by
  rw [reconcile_store]
  exact seeded_users textTrue s

@[simp]
theorem reconcile_usage (records : List Core.Record) (s : SafetyStore) :
    (reconcile textTrue true now records s).store.usage = s.usage := by
  rw [reconcile_store]
  exact seeded_usage textTrue s

/-- A second reconciliation at the same time changes nothing. -/
theorem reconcile_again (records records' : List Core.Record)
    (hemails : (s.users.rows.map fun r => r.2.coreEmail).Nodup) :
    (reconcile textTrue true now records' (reconcile textTrue true now records s).store).store =
        (reconcile textTrue true now records s).store ∧
      (reconcile textTrue true now records' (reconcile textTrue true now records s).store).changed =
        0 := by
  generalize ht : (reconcile textTrue true now records s).store = t
  have husers : t.users = s.users := by rw [← ht, reconcile_users]
  have hused : ∀ id, t.used id = s.used id := by
    intro id
    unfold SafetyStore.used
    rw [← ht, reconcile_usage]
  have hseeded : t.seeded textTrue = t := by
    unfold SafetyStore.seeded
    rw [if_neg]
    unfold SafetyStore.unseeded
    rw [List.any_eq_true]
    rintro ⟨⟨id, user⟩, hmem, hmissing⟩
    rw [Bool.and_eq_true] at hmissing
    rw [husers] at hmem
    obtain ⟨safety, -, hsafety, -⟩ := reconcile_user textTrue now records hemails
      (Table.get?_eq_some_iff.mpr hmem) hmissing.1
    rw [ht] at hsafety
    rw [hsafety] at hmissing
    exact Bool.false_ne_true hmissing.2
  have hquiet : (t.judged now).filter (fun j => j.coreChange || j.metadataChange) = [] := by
    rw [List.filter_eq_nil_iff]
    intro j hj
    obtain ⟨id, user, safety', hmem, hlive, hsafety', rfl⟩ := mem_judged.mp hj
    rw [husers] at hmem
    obtain ⟨safety, -, hsafety, hcore⟩ := reconcile_user textTrue now records hemails
      (Table.get?_eq_some_iff.mpr hmem) hlive
    rw [ht] at hsafety hcore
    obtain rfl := Option.some.inj (hsafety'.symm.trans hsafety)
    have hclient : t.client user = (s.client user).map
        (judge now (s.used id) id user safety (s.client user)).newClient := by
      unfold SafetyStore.client at hcore ⊢
      rw [hcore, Option.map_map, Option.map_map]
      rfl
    rw [hclient, hused]
    obtain ⟨hcoreChange, hmetadataChange, -⟩ :=
      judge_again now (s.used id) id user safety (s.client user)
    rw [hcoreChange, hmetadataChange]
    exact Bool.false_ne_true
  unfold reconcile
  rw [if_pos rfl, hseeded]
  dsimp only
  rw [hquiet]
  exact ⟨rfl, rfl⟩

/-- A record of another client stays as it is. -/
theorem setRecord_other {email : String} {desired : Bool} {records : List Core.Record} {place : ℕ}
    {r : Core.Record} (hr : records[place]? = some r) (hother : emailOf r ≠ some email) :
    (setRecord email desired records)[place]? = some r := by
  induction records generalizing place with
  | nil => cases hr
  | cons first rest ih =>
      unfold setRecord
      cases place with
      | zero =>
          obtain rfl := Option.some.inj hr
          rw [if_neg fun h => hother h.1]
          rfl
      | succ place =>
          rw [List.getElem?_cons_succ] at hr
          split
          · exact hr
          · exact ih hr

/-- No record changes that is not a live user's. -/
theorem reconcile_records_other {records : List Core.Record} {place : ℕ} {r : Core.Record}
    (hr : records[place]? = some r)
    (hother : ∀ id user, s.users.get? id = some user → user.live = true →
      emailOf r ≠ some user.coreEmail) :
    (reconcile textTrue true now records s).records[place]? = some r := by
  have hjudged : ∀ j ∈ (s.seeded textTrue).judged now, emailOf r ≠ some j.user.coreEmail := by
    intro j hj
    obtain ⟨id, user, safety, hmem, hlive, -, rfl⟩ := mem_judged.mp hj
    rw [seeded_users] at hmem
    exact hother id user (Table.get?_eq_some_iff.mpr hmem) hlive
  unfold reconcile
  rw [if_pos rfl]
  dsimp only
  revert hjudged
  generalize (s.seeded textTrue).judged now = js
  intro hjudged
  induction js generalizing records with
  | nil => exact hr
  | cons j js ih =>
      rw [List.foldl_cons]
      apply ih
      · exact setRecord_other hr (hjudged j List.mem_cons_self)
      · exact fun j' hj' => hjudged j' (List.mem_cons_of_mem _ hj')

end Reconciliation

/-! ## Review and suspension -/

/-- An {lit}`HTTPException`. -/
structure HttpError where
  status : ℕ
  detail : String
deriving DecidableEq, Repr

/-- What {lit}`_review_revision` hashes. -/
structure RevisionKey where
  id : String
  data : SourceData
  enabled : Bool
  metadataState : MetadataState
  note : String
  checkedAt : ℚ
  externalDisabled : Bool
deriving DecidableEq, Repr

/-- The source data of a row. -/
def RestoreUser.data (r : RestoreUser) : SourceData :=
  ⟨r.legacyUpload, r.legacyDownload, r.legacyTotal, r.legacyExpire⟩

/-- {lit}`_review_revision`, before the hash. -/
def reviewKey (id : String) (r : RestoreUser) (s : SafetyRow) : RevisionKey where
  id := id
  data := r.data
  enabled := r.enabled
  metadataState := s.metadataState
  note := s.note
  checkedAt := s.checkedAt
  externalDisabled := s.externalDisabled

/-- {lit}`RestoreReviewBody`. -/
structure ReviewBody where
  data : SourceData
  note : String
  expectedRevision : String
  confirmed : Bool
deriving DecidableEq, Repr

/-- {lit}`RestoreSuspensionBody`. -/
structure SuspensionBody where
  suspended : Bool
  expectedRevision : String
deriving DecidableEq, Repr

/-- Transactions on the tables of eligibility. -/
abbrev SafetyTx (α : Type) : Type :=
  Tx SafetyStore HttpError α

variable (revision : RevisionKey → String)

/-- The checks that {lit}`review_metadata` and {lit}`set_suspension` share: the user and its
row. -/
def editable (id expectedRevision stale : String) : SafetyTx (RestoreUser × SafetyRow) := do
  let row ← Tx.read fun s => s.users.get? id
  let r ← Tx.demand row ⟨404, "Restore user not found"⟩
  Tx.require (¬ 0 < r.deletedAt) ⟨410, "Archived Restore user is read-only"⟩
  Tx.require (¬ 0 < r.promotedAt) ⟨409, "Promoted Restore users are managed from native Clients"⟩
  let safety ← Tx.read fun s => s.safety.get? id
  let safety ← Tx.demand safety ⟨409, stale⟩
  Tx.require (revision (reviewKey id r safety) = expectedRevision) ⟨409, stale⟩
  return (r, safety)

/-- Note an event. -/
def noteEvent (id : String) (note : SafetyNote) (now : ℚ) : SafetyTx Unit :=
  Tx.write fun s => { s with log := s.log ++ [⟨id, note, now⟩] }

/-- The transaction of {lit}`review_metadata`. -/
def reviewTx (id : String) (value : ReviewBody) (now : ℚ) : SafetyTx Unit := do
  let (r, _) ← editable revision id value.expectedRevision
    "Metadata changed. Reopen the review before saving."
  let c ← Tx.read fun s => s.core.get? r.coreEmail
  let c ← Tx.demand c ⟨409, "Restore identity missing; automatic recreation refused"⟩
  let body := (c.body.set "totalGB" (Library.Doc.int value.data.total)).set "expiryTime"
    (Library.Doc.int (value.data.expire * 1000))
  Tx.write fun s => { s with
    core := s.core.update r.coreEmail fun row => { row with body := body } }
  Tx.write fun s => { s with
    users := s.users.update id fun u => { u with
      legacyUpload := value.data.upload
      legacyDownload := value.data.download
      legacyTotal := value.data.total
      legacyExpire := value.data.expire
      scanStatus := "verified"
      scanError := ""
      updatedAt := now } }
  Tx.write fun s => { s with
    safety := s.safety.update id fun row => { row with
      metadataState := .manual
      checkedAt := now
      note := Access.strip value.note } }
  noteEvent id (.reviewed r.data value.data (Access.strip value.note)) now

/-- {lit}`review_metadata`, up to {lit}`_apply_safety_change`. -/
def reviewMetadata (id : String) (value : ReviewBody) (now : ℚ) : SafetyTx Unit := do
  Tx.require (value.confirmed = true ∧ 5 ≤ (Access.strip value.note).length)
    ⟨400, "Explicit source metadata confirmation is required"⟩
  Tx.require (value.data.upload + value.data.download ≤ maxBytes)
    ⟨400, "Source traffic counter overflow"⟩
  Tx.transaction (reviewTx revision id value now)

/-- The transaction of {lit}`set_suspension`. -/
def suspensionTx (id : String) (value : SuspensionBody) (now : ℚ) : SafetyTx Unit := do
  let _ ← editable revision id value.expectedRevision "Restore state changed. Reopen before saving."
  Tx.write fun s => { s with
    users := s.users.update id fun u => { u with enabled := !value.suspended, updatedAt := now } }
  Tx.write fun s => { s with
    safety := s.safety.update id fun row => { row with
      externalDisabled := false
      expectedEnable := false } }
  noteEvent id (.suspension value.suspended) now

/-- {lit}`set_suspension`, up to {lit}`_apply_safety_change`. -/
def setSuspension (id : String) (value : SuspensionBody) (now : ℚ) : SafetyTx Unit :=
  Tx.transaction (suspensionTx revision id value now)

end Nodes
end DarkXray
