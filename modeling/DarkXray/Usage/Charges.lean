import DarkXray.Usage.Statistics

/-!
# Charging the local counters

{lit}`_charge_snapshot` compares the counters of a client with the ones it charged
last, writes a ledger row for the difference and stores the counters, all in one
transaction; the client's used bytes become the local counters together with the
current counters of every Node.

Main results:

- Theorem {lit}`chargeSnapshot_ok`: what a charge that returned did.
- Theorem {lit}`eventId_injective`: different numbers give different ledger keys.
- Theorem {lit}`atomic_chargeSnapshot`: a charge that raised did nothing.
-/

namespace DarkXray
namespace Usage

open Library Policy Nodes

/-! ## Tables -/

/-- The metering columns of {lit}`managed_clients`. -/
structure ManagedMeter where
  lastUp : ℤ
  lastDown : ℤ
  initialized : Bool
  seq : ℕ
deriving DecidableEq, Repr

/-- A row of {lit}`live_audit`. -/
structure AuditRow where
  actor : String
  owner : String
  action : String
  target : String
  detail : String
deriving DecidableEq, Repr

/-- The tables that charging reads and writes.  {lit}`periods` is the period column of
{lit}`owners`; {lit}`usage` is {lit}`none` while {lit}`remote_node_client_usage` does not
exist. -/
structure Accounts where
  clients : Table String MeteredClient
  periods : Table String ℤ
  managed : Table String ManagedMeter
  usage : Option (Table (String × String) UsageRow)
  trafficLedger : Table String LedgerRow
  audit : List AuditRow

/-- Bytes that the Nodes currently count for a client. -/
def Accounts.remote (s : Accounts) (email : String) : ℤ :=
  s.usage.elim 0 fun usage => usage.total fun k r =>
    if k.2 = email then r.currentUp + r.currentDown else 0

/-- Keys that charging the local counters writes. -/
def engineKey (key : String) : Bool :=
  "engine:".toList.isPrefixOf key.toList

/-- Bytes in the {lit}`engine:` rows of a client. -/
def Accounts.billed (s : Accounts) (email : String) : ℤ :=
  s.trafficLedger.total fun key r =>
    if r.clientId = email ∧ engineKey key = true then r.upBytes + r.downBytes else 0

/-- The key of a ledger row; {lit}`digest` stands for the shortened hash. -/
def eventId (digest : String → String) (email : String) (seq : ℕ) : String :=
  "engine:" ++ digest email ++ ":" ++ toString seq

/-! ## Charging -/

/-- {lit}`CoreEngine.counters` of the traffic of a record. -/
def counters : Option Counters → Except Failure (ℤ × ℤ)
  | none => .ok (0, 0)
  | some ⟨.int up, .int down⟩ =>
      if 0 ≤ up ∧ up ≤ maxInt ∧ 0 ≤ down ∧ down ≤ maxInt then .ok (up, down)
      else .error (.coreError "Invalid core counters")
  | some _ => .error (.coreError "Invalid core counters")

/-- Sum the current counters of the Nodes; SQLite refuses a sum that overflows. -/
def readRemote (email : String) : Tx Accounts Failure ℤ := do
  let remote ← Tx.read fun s => s.remote email
  Tx.require (-maxInt ≤ remote ∧ remote ≤ maxInt) .integerOverflow
  return remote

/-- The ledger row of a difference; a missing owner raises. -/
def insertLedger (digest : String → String) (email owner : String) (seq : ℕ) (du dd : ℤ) :
    Tx Accounts Failure Unit := do
  demandPolicy (du + dd ≤ maxInt) "Counter overflow"
  let period ← Tx.read fun s => s.periods.get? owner
  let period ← Tx.demand period .databaseError
  let key := eventId digest email seq
  let old ← Tx.read fun s => s.trafficLedger.get? key
  Tx.require (old = none) .integrityError
  Tx.write fun s => { s with
    trafficLedger := s.trafficLedger.insert key ⟨owner, email, period, du, dd⟩ }

/-- The baseline has to be stored. -/
def checkpointChanged (row : ManagedMeter) (up down : ℤ) : Prop :=
  up ≠ row.lastUp ∨ down ≠ row.lastDown ∨ row.initialized = false

instance instDecidableCheckpointChanged (row : ManagedMeter) (up down : ℤ) :
    Decidable (checkpointChanged row up down) :=
  inferInstanceAs (Decidable (_ ∨ _))

/-- Store the total where it differs. -/
def storeUsed (email : String) (total : ℤ) (user : MeteredClient) : Tx Accounts Failure Unit :=
  Tx.when (total ≠ user.usedBytes) (Tx.write fun s => { s with
    clients := s.clients.update email fun c => { c with usedBytes := total } })

/-- Store the counters as the new baseline where they changed. -/
def storeBaseline (email : String) (row : ManagedMeter) (up down : ℤ) : Tx Accounts Failure Unit :=
  Tx.when (checkpointChanged row up down) (Tx.write fun s => { s with
    managed := s.managed.update email fun m => { m with
      lastUp := up, lastDown := down, initialized := true, seq := row.seq + 1 } })

/-- The transaction of a charge; it gives the owner, or nothing where the client has
gone in the meantime. -/
def advance (digest : String → String) (email : String) (row : ManagedMeter) (up down : ℤ) :
    Tx Accounts Failure (Option String) :=
  Tx.transaction do
    let user ← Tx.read fun s => s.clients.get? email
    match user with
    | none => return none
    | some user => do
        let du := counterDelta up row.lastUp
        let dd := counterDelta down row.lastDown
        Tx.when (du ≠ 0 ∨ dd ≠ 0) (insertLedger digest email user.owner (row.seq + 1) du dd)
        let remote ← readRemote email
        demandPolicy (up + down + remote ≤ maxInt) "Global client traffic counter overflow"
        storeUsed email (up + down + remote) user
        storeBaseline email row up down
        return some user.owner

/-- {lit}`_charge_snapshot`; {lit}`row` is the row of {lit}`managed_clients` and
{lit}`traffic` the counters of the record, as the caller read them. -/
def chargeSnapshot (digest : String → String) (email : String) (row : ManagedMeter)
    (traffic : Option Counters) : Tx Accounts Failure Unit := do
  let c ← Tx.ofExcept (counters traffic)
  demandPolicy (c.1 + c.2 ≤ maxInt) "Counter overflow"
  Tx.require (traffic ≠ none ∨ (row.lastUp = 0 ∧ row.lastDown = 0)) (.coreError
    "Missing engine traffic for a previously metered client; refusing to erase its baseline")
  let du := counterDelta c.1 row.lastUp
  let dd := counterDelta c.2 row.lastDown
  let user ← Tx.read fun s => s.clients.get? email
  match user with
  | none => return ()
  | some user => do
      let remote ← readRemote email
      demandPolicy (c.1 + c.2 + remote ≤ maxInt) "Global client traffic counter overflow"
      Tx.when (du ≠ 0 ∨ dd ≠ 0 ∨ checkpointChanged row c.1 c.2 ∨
          c.1 + c.2 + remote ≠ user.usedBytes) do
        let owner ← advance digest email row c.1 c.2
        Tx.when (owner ≠ none ∧ (c.1 < row.lastUp ∨ c.2 < row.lastDown)) (Tx.write fun s => { s with
          audit := s.audit ++ [⟨"_dark_system", owner.getD "", "counter.reset_observed", email,
            "Ledger preserved; traffic lost between polling observations cannot be reconstructed"⟩] })

/-- The last transaction of {lit}`_apply` for a reset: the baseline and all current
counters start again from zero; {lit}`commits` says whether it commits. -/
def settleReset (email : String) (commits : Bool) : Tx Accounts Failure Unit :=
  Tx.transaction do
    Tx.write fun s => { s with
      clients := s.clients.update email fun c => { c with usedBytes := 0 }
      managed := s.managed.update email fun m => { m with lastUp := 0, lastDown := 0 }
      usage := s.usage.map fun usage => usage.mapRows fun k r =>
        if k.2 = email then { r with currentUp := 0, currentDown := 0 } else r }
    Tx.require (commits = true) .databaseError

/-! ## What a charge does -/

section Charging

variable {digest : String → String} {e owner : String} {row : ManagedMeter} {up down du dd : ℤ}
  {seq : ℕ} {s t : Accounts}

/-- Different numbers give different keys. -/
theorem eventId_injective {m n : ℕ} (h : eventId digest e m = eventId digest e n) : m = n := by
  unfold eventId at h
  have hrepr : toString m = toString n := by
    have hlist := congrArg String.toList h
    simp only [String.toList_append] at hlist
    exact String.toList_inj.mp (List.append_cancel_left hlist)
  rw [Nat.toString_eq_repr, Nat.toString_eq_repr] at hrepr
  have hdigits : Nat.toDigits 10 m = Nat.toDigits 10 n := by
    simpa [Nat.repr] using congrArg String.toList hrepr
  rw [← Nat.ofDigitChars_ten_toDigits (n := m), hdigits, Nat.ofDigitChars_ten_toDigits]

/-- An unchanged counter counts nothing. -/
theorem counterDelta_eq_zero (n : ℤ) : counterDelta n n = 0 := by
  simp [counterDelta]

/-- A counter that counts something changes the checkpoint. -/
theorem checkpointChanged_of_delta
    (h : counterDelta up row.lastUp ≠ 0 ∨ counterDelta down row.lastDown ≠ 0) :
    checkpointChanged row up down := by
  unfold checkpointChanged
  rcases h with h | h
  · exact .inl fun heq => h (heq ▸ counterDelta_eq_zero _)
  · exact .inr (.inl fun heq => h (heq ▸ counterDelta_eq_zero _))

/-- From {lit}`s` to {lit}`t` the client was charged up to the given counters. -/
structure Charged (digest : String → String) (e : String) (row : ManagedMeter) (up down : ℤ)
    (s t : Accounts) : Prop where
  used : ∃ c, t.clients.get? e = some c ∧ c.usedBytes = up + down + t.remote e
  billed : t.billed e = s.billed e + (counterDelta up row.lastUp + counterDelta down row.lastDown)
  managed : ∃ m, t.managed.get? e = some m ∧ m.lastUp = up ∧ m.lastDown = down ∧
    ((row.seq ≤ m.seq ∧ t.trafficLedger = s.trafficLedger) ∨
      (row.seq + 1 = m.seq ∧ ∃ r, s.trafficLedger.get? (eventId digest e m.seq) = none ∧
        t.trafficLedger = s.trafficLedger.insert (eventId digest e m.seq) r))

/-- An entry is written under an id that is new. -/
theorem insertLedger_ok {r : Unit} (h : insertLedger digest e owner seq du dd s = (.ok r, t)) :
    ∃ l : LedgerRow, s.trafficLedger.get? (eventId digest e seq) = none ∧ l.clientId = e ∧
      l.upBytes + l.downBytes = du + dd ∧
      t = { s with trafficLedger := s.trafficLedger.insert (eventId digest e seq) l } := by
  simp only [insertLedger, demandPolicy, Tx.read_bind, Tx.require_bind_iff, Tx.demand_bind_iff,
    Tx.write_ok_iff] at h
  rcases h with ⟨_, period, _, hnew, rfl⟩
  exact ⟨⟨owner, e, period, du, dd⟩, hnew, rfl, rfl, rfl⟩

theorem engineKey_eventId : engineKey (eventId digest e seq) = true := by
  simp [engineKey, eventId, String.toList_append]

/-- The usage of the Nodes is only read. -/
theorem readRemote_ok {n : ℤ} (h : readRemote e s = (.ok n, t)) : n = s.remote e ∧ t = s := by
  simp only [readRemote, Tx.read_bind, Tx.require_bind_iff, Tx.pure_ok_iff] at h
  exact ⟨h.2.1.symm, h.2.2.symm⟩

/-- A row of the client adds its bytes to what was charged. -/
theorem billed_insert {l : LedgerRow} (hnew : s.trafficLedger.get? (eventId digest e seq) = none)
    (hl : l.clientId = e) :
    ({ s with trafficLedger := s.trafficLedger.insert (eventId digest e seq) l } : Accounts).billed e
      = s.billed e + (l.upBytes + l.downBytes) := by
  simp only [Accounts.billed, Table.total_insert hnew, hl, engineKey_eventId, and_self, if_true]

/-- The ledger after the difference was written: a new row, or none for no difference. -/
theorem ledger_step {r : Unit}
    (h : Tx.when (du ≠ 0 ∨ dd ≠ 0) (insertLedger digest e owner seq du dd) s = (.ok r, t)) :
    t.billed e = s.billed e + (du + dd) ∧ t.clients = s.clients ∧ t.managed = s.managed ∧
      t.usage = s.usage ∧
      (t.trafficLedger = s.trafficLedger ∨
        (du ≠ 0 ∨ dd ≠ 0) ∧ ∃ l, s.trafficLedger.get? (eventId digest e seq) = none ∧
          t.trafficLedger = s.trafficLedger.insert (eventId digest e seq) l) := by
  rcases Tx.when_ok_iff.mp h with ⟨hchange, h⟩ | ⟨hzero, rfl⟩
  · obtain ⟨l, hnew, hclient, hbytes, rfl⟩ := insertLedger_ok h
    rw [billed_insert hnew hclient, hbytes]
    exact ⟨rfl, rfl, rfl, rfl, .inr ⟨hchange, l, hnew, rfl⟩⟩
  · rw [not_or, not_not, not_not] at hzero
    rw [hzero.1, hzero.2]
    exact ⟨by omega, rfl, rfl, rfl, .inl rfl⟩

/-- The used bytes after they were compared with the total. -/
theorem used_step {user : MeteredClient} {total : ℤ} {r : Unit}
    (huser : s.clients.get? e = some user)
    (h : storeUsed e total user s = (.ok r, t)) :
    (∃ c, t.clients.get? e = some c ∧ c.usedBytes = total) ∧ t = { s with clients := t.clients } := by
  unfold storeUsed at h
  rcases Tx.when_ok_iff.mp h with ⟨_, h⟩ | ⟨hsame, rfl⟩
  · rw [Tx.write_ok_iff] at h
    subst h
    simp [huser]
  · rw [not_not] at hsame
    exact ⟨⟨user, huser, hsame.symm⟩, rfl⟩

/-- The baseline after it was compared with the counters. -/
theorem store_step {r : Unit} (hrow : s.managed.get? e = some row)
    (h : storeBaseline e row up down s = (.ok r, t)) :
    (∃ m, t.managed.get? e = some m ∧ m.lastUp = up ∧ m.lastDown = down ∧
      ((checkpointChanged row up down ∧ m.seq = row.seq + 1) ∨
        (¬checkpointChanged row up down ∧ m.seq = row.seq))) ∧
      t = { s with managed := t.managed } := by
  unfold storeBaseline at h
  rcases Tx.when_ok_iff.mp h with ⟨hchanged, h⟩ | ⟨hsame, rfl⟩
  · rw [Tx.write_ok_iff] at h
    subst h
    simp [hrow, hchanged]
  · have hrows := hsame
    simp only [checkpointChanged, not_or, not_not] at hrows
    exact ⟨⟨row, hrow, hrows.1.symm, hrows.2.1.symm, .inr ⟨hsame, rfl⟩⟩, rfl⟩

/-- An advance that succeeds has charged what the counters grew by. -/
theorem advance_ok {user : MeteredClient} {o : Option String}
    (huser : s.clients.get? e = some user) (hrow : s.managed.get? e = some row)
    (h : advance digest e row up down s = (.ok o, t)) : Charged digest e row up down s t := by
  simp only [advance, Tx.transaction_ok_iff, Tx.read_bind, huser] at h
  obtain ⟨_, a, hledger, h⟩ := Tx.bind_ok_iff.mp h
  obtain ⟨remote, a', hremote, h⟩ := Tx.bind_ok_iff.mp h
  obtain ⟨rfl, rfl⟩ := readRemote_ok hremote
  obtain ⟨hbilled, hclients, hmanaged, husage, hrows⟩ := ledger_step hledger
  simp only [demandPolicy, Tx.require_bind_iff] at h
  obtain ⟨_, h⟩ := h
  obtain ⟨_, b, hused, h⟩ := Tx.bind_ok_iff.mp h
  obtain ⟨_, c, hstore, h⟩ := Tx.bind_ok_iff.mp h
  obtain ⟨_, rfl⟩ := Tx.pure_ok_iff.mp h
  obtain ⟨huseds, hb⟩ := used_step (hclients ▸ huser) hused
  have hbrow : b.managed.get? e = some row := by
    rw [hb]
    exact hmanaged ▸ hrow
  obtain ⟨⟨m, hm, hup, hdown, hseq⟩, hc⟩ := store_step hbrow hstore
  have hclient : c.clients = b.clients := by rw [hc]
  have hsameUsage : c.usage = a'.usage := by rw [hc, hb]
  have hsameLedger : c.trafficLedger = a'.trafficLedger := by rw [hc, hb]
  refine ⟨?_, ?_, m, hm, hup, hdown, ?_⟩
  · have hsame : c.remote e = a'.remote e := by simp only [Accounts.remote, hsameUsage]
    rw [hclient, hsame]
    exact huseds
  · rw [← hbilled]
    simp only [Accounts.billed, hsameLedger]
  · rw [hsameLedger]
    rcases hrows with hledger | ⟨hchange, l, hnew, hinsert⟩
    · left
      refine ⟨?_, hledger⟩
      omega
    · right
      have hchanged : checkpointChanged row up down := checkpointChanged_of_delta hchange
      have hnext : m.seq = row.seq + 1 := by
        rcases hseq with ⟨_, hseq⟩ | ⟨hnot, _⟩
        · exact hseq
        · exact absurd hchanged hnot
      rw [hnext]
      exact ⟨rfl, l, hnew, hinsert⟩

/-- Counters that are read are integers. -/
theorem counters_ok {c : Counters} {x : ℤ × ℤ} (h : counters (some c) = .ok x) :
    c = ⟨.int x.1, .int x.2⟩ := by
  rcases c with ⟨up | up, down | down⟩
  · simp only [counters] at h
    split at h
    · cases h
      rfl
    · cases h
  · cases h
  · cases h
  · cases h

/-- A charge that has nothing to do leaves everything where a charge puts it. -/
theorem Charged.unchanged {user : MeteredClient} (huser : s.clients.get? e = some user)
    (hrow : s.managed.get? e = some row) (hup : counterDelta up row.lastUp = 0)
    (hdown : counterDelta down row.lastDown = 0) (hsame : ¬checkpointChanged row up down)
    (hused : up + down + s.remote e = user.usedBytes) : Charged digest e row up down s s := by
  simp only [checkpointChanged, not_or, not_not] at hsame
  refine ⟨⟨user, huser, hused.symm⟩, by omega, row, hrow, hsame.1.symm, hsame.2.1.symm, ?_⟩
  exact .inl ⟨le_rfl, rfl⟩

/-- The audit log is no part of the account. -/
theorem Charged.audit {log : List AuditRow} (h : Charged digest e row up down s t) :
    Charged digest e row up down s { t with audit := log } :=
  ⟨h.used, h.billed, h.managed⟩

/-- A charge that returned for a client that exists has charged it. -/
theorem chargeSnapshot_ok {c : Counters} {user : MeteredClient} {r : Unit}
    (huser : s.clients.get? e = some user) (hrow : s.managed.get? e = some row)
    (h : chargeSnapshot digest e row (some c) s = (.ok r, t)) :
    ∃ up down, c = ⟨.int up, .int down⟩ ∧ Charged digest e row up down s t := by
  simp only [chargeSnapshot, demandPolicy, Tx.ofExcept_bind_iff, Tx.require_bind_iff,
    Tx.read_bind, huser] at h
  obtain ⟨x, hx, _, _, h⟩ := h
  obtain ⟨remote, a, hremote, h⟩ := Tx.bind_ok_iff.mp h
  obtain ⟨rfl, rfl⟩ := readRemote_ok hremote
  rw [Tx.require_bind_iff] at h
  refine ⟨x.1, x.2, counters_ok hx, ?_⟩
  rcases Tx.when_ok_iff.mp h.2 with ⟨_, h⟩ | ⟨hidle, rfl⟩
  · obtain ⟨o, b, hadvance, h⟩ := Tx.bind_ok_iff.mp h
    have hcharged := advance_ok huser hrow hadvance
    rcases Tx.when_ok_iff.mp h with ⟨_, h⟩ | ⟨_, rfl⟩
    · rw [Tx.write_ok_iff] at h
      subst h
      exact hcharged.audit
    · exact hcharged
  · simp only [not_or, not_not, ne_eq] at hidle
    exact .unchanged huser hrow hidle.1 hidle.2.1 hidle.2.2.1 hidle.2.2.2

theorem readOnly_readRemote : Tx.ReadOnly (readRemote e) := by
  intro s
  unfold readRemote
  rw [Tx.read_bind, Tx.bind_apply]
  by_cases hfits : -maxInt ≤ s.remote e ∧ s.remote e ≤ maxInt
  · rw [Tx.require, if_pos hfits]
    rfl
  · rw [Tx.require, if_neg hfits]
    rfl

/-- A write that follows a transaction cannot fail. -/
theorem atomic_transaction_write {p : Option String → Prop} [DecidablePred p]
    {f : Option String → Accounts → Accounts} {m : Tx Accounts Failure (Option String)} :
    Tx.Atomic (Tx.transaction m >>= fun o => Tx.when (p o) (Tx.write (f o))) := by
  intro s failure t h
  rw [Tx.bind_apply] at h
  rcases hm : Tx.transaction m s with ⟨failure' | o, a⟩
  · rw [hm] at h
    rw [← (Prod.mk.inj h).2]
    exact Tx.Atomic.transaction m s failure' a hm
  · rw [hm] at h
    simp only [Tx.when] at h
    split at h <;> cases h

/-- A charge that raises changes nothing. -/
theorem atomic_chargeSnapshot {c : Option Counters} :
    Tx.Atomic (chargeSnapshot digest e row c) := by
  refine .bind (.ofExcept _) fun x => ?_
  refine .bind (readOnly_demandPolicy _ _) fun _ => ?_
  refine .bind (.require _ _) fun _ => ?_
  refine .bind (fun _ => rfl) fun user => ?_
  cases user with
  | none => exact Tx.ReadOnly.atomic fun _ => rfl
  | some user =>
      refine .bind readOnly_readRemote fun remote => ?_
      refine .bind (readOnly_demandPolicy _ _) fun _ => ?_
      unfold Tx.when
      split
      · exact atomic_transaction_write
      · exact Tx.ReadOnly.atomic fun _ => rfl

/-- The last transaction of a reset. -/
theorem settleReset_apply (commits : Bool) :
    settleReset e commits s =
      if commits = true then (.ok (), { s with
        clients := s.clients.update e fun c => { c with usedBytes := 0 }
        managed := s.managed.update e fun m => { m with lastUp := 0, lastDown := 0 }
        usage := s.usage.map fun usage => usage.mapRows fun k r =>
          if k.2 = e then { r with currentUp := 0, currentDown := 0 } else r })
      else (.error .databaseError, s) := by
  cases commits <;> rfl

end Charging

end Usage
end DarkXray
