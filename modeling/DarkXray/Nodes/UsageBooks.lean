import DarkXray.Library.Journals
import DarkXray.Library.Preconditions
import DarkXray.Nodes.Traffic

/-!
# The books of a Node's traffic

The Hub keeps what a Node reported in four places: the baseline of a usage row, its
running totals, the numbered rows of the traffic ledger, and the used bytes of the
client.  This file states how they agree and shows that a report keeps the agreement.

Main results:

- Theorem {lit}`usageEventId_injective`: an event id tells its row and its number.
- Theorem {lit}`applyReading_spec`: what one report writes, and that it never meets a
  taken event id.
- Theorem {lit}`Books.took`: a report keeps the books.
- Theorem {lit}`applyTrafficSnapshot_spec`: what a whole snapshot does to every row.
-/

namespace DarkXray
namespace Nodes

open Library Policy

/-! ## The two counters -/

/-- The two counters of a client. -/
inductive Way where
  | up
  | down
deriving DecidableEq, Repr

/-- A pair of counters. -/
def Way.pick (up down : ℤ) : Way → ℤ
  | .up => up
  | .down => down

/-- The stored counter. -/
def UsageRow.raw (r : UsageRow) : Way → ℤ
  | .up => r.rawUp
  | .down => r.rawDown

/-- The running total. -/
def UsageRow.current (r : UsageRow) : Way → ℤ
  | .up => r.currentUp
  | .down => r.currentDown

/-- The bytes of a ledger row. -/
def LedgerRow.bytes (r : LedgerRow) : Way → ℤ
  | .up => r.upBytes
  | .down => r.downBytes

/-! ## Event ids -/

/-- The name of the entries of a usage row, by their number. -/
def eventId (digest : String → String) (k : String × String) (seq : ℤ) : String :=
  usageEventId digest k.1 k.2 seq

/-- Decimal digits are no colon. -/
private theorem toDigits_noColon {n : ℕ} : ':' ∉ Nat.toDigits 10 n := by
  intro hmem
  have hdigit := Nat.isDigit_of_mem_toDigits (by decide) (by decide) hmem
  exact absurd hdigit (by decide)

/-- A natural number is written in decimal digits. -/
private theorem toString_int (n : ℕ) : (toString (n : ℤ)).toList = Nat.toDigits 10 n := by
  have hrepr : toString (n : ℤ) = Nat.repr n := rfl
  rw [hrepr]
  simp [Nat.repr]

/-- A list splits at its last colon in one way. -/
private theorem append_separator {a b c d : List Char} (hb : ':' ∉ b) (hd : ':' ∉ d)
    (h : a ++ ':' :: b = c ++ ':' :: d) : a = c ∧ b = d := by
  have hreverse := congrArg List.reverse h
  simp only [List.reverse_append, List.reverse_cons, List.append_assoc,
    List.singleton_append] at hreverse
  rcases List.append_eq_append_iff.mp hreverse with ⟨m, hm, hrest⟩ | ⟨m, hm, hrest⟩
  · cases m with
    | nil =>
        simp only [List.append_nil, List.nil_append, List.cons.injEq, true_and] at hm hrest
        exact ⟨List.reverse_inj.mp hrest, (List.reverse_inj.mp hm).symm⟩
    | cons x m =>
        rw [List.cons_append, List.cons.injEq] at hrest
        have hmem : ':' ∈ d.reverse := by
          rw [hm, hrest.1]
          simp
        exact absurd (List.mem_reverse.mp hmem) hd
  · cases m with
    | nil =>
        simp only [List.append_nil, List.nil_append, List.cons.injEq, true_and] at hm hrest
        exact ⟨(List.reverse_inj.mp hrest).symm, List.reverse_inj.mp hm⟩
    | cons x m =>
        rw [List.cons_append, List.cons.injEq] at hrest
        have hmem : ':' ∈ b.reverse := by
          rw [hm, hrest.1]
          simp
        exact absurd (List.mem_reverse.mp hmem) hb

/-- An event id tells the digest of its row and its number. -/
theorem usageEventId_injective {digest : String → String} {j k : String × String} {m n : ℤ}
    (hm : 0 ≤ m) (hn : 0 ≤ n) (h : eventId digest j m = eventId digest k n) :
    digest (j.1 ++ "\x00" ++ j.2) = digest (k.1 ++ "\x00" ++ k.2) ∧ m = n := by
  lift m to ℕ using hm
  lift n to ℕ using hn
  have hlist := congrArg String.toList h
  simp only [eventId, usageEventId, String.toList_append, toString_int] at hlist
  have hcolon : (":" : String).toList = [':'] := rfl
  rw [hcolon, List.append_assoc, List.append_assoc, List.append_assoc, List.append_assoc] at hlist
  have hrest := List.append_cancel_left hlist
  obtain ⟨hdigest, hdigits⟩ := append_separator toDigits_noColon toDigits_noColon hrest
  refine ⟨String.toList_inj.mp hdigest, congrArg Nat.cast ?_⟩
  rw [← Nat.ofDigitChars_ten_toDigits (n := m), hdigits, Nat.ofDigitChars_ten_toDigits]

/-! ## What a report writes -/

/-- The number of the last entry of a row. -/
def Hub.seqOf (h : Hub) (k : String × String) : ℤ :=
  (h.usage.get? k).elim 0 UsageRow.seq

/-- The running totals of a client over all Nodes. -/
def Hub.remote (h : Hub) (e : String) : ℤ :=
  h.usage.total fun k r => if k.2 = e then r.currentUp + r.currentDown else 0

/-- The bytes that a report charges: none for its first one. -/
def unread (old : Option UsageRow) (up down : ℤ) (way : Way) : ℤ :=
  old.elim 0 fun row =>
    if row.initialized = true then counterDelta (way.pick up down) (row.raw way) else 0

/-- The report charges something. -/
abbrev Charges (old : Option UsageRow) (up down : ℤ) : Prop :=
  unread old up down .up ≠ 0 ∨ unread old up down .down ≠ 0

/-- The usage row after a report. -/
def takeReading (old : Option UsageRow) (up down : ℤ) : UsageRow where
  rawUp := up
  rawDown := down
  currentUp := old.elim 0 UsageRow.currentUp + unread old up down .up
  currentDown := old.elim 0 UsageRow.currentDown + unread old up down .down
  seq := old.elim 0 UsageRow.seq + if Charges old up down then 1 else 0
  initialized := true

/-- The ledger after a report. -/
def Posted (digest : String → String) (k : String × String) (up down : ℤ) (s t : Hub) : Prop :=
  (¬Charges (s.usage.get? k) up down ∧ t.trafficLedger = s.trafficLedger) ∨
    (Charges (s.usage.get? k) up down ∧
      s.trafficLedger.get? (eventId digest k (s.seqOf k + 1)) = none ∧
      ∃ r, (∀ way, r.bytes way = unread (s.usage.get? k) up down way) ∧
        t.trafficLedger = s.trafficLedger.insert (eventId digest k (s.seqOf k + 1)) r)

/-- From {lit}`s` to {lit}`t` a report was taken up. -/
structure Took (digest : String → String) (k : String × String) (up down : ℤ) (s t : Hub) :
    Prop where
  usage : ∀ j, t.usage.get? j =
    if j = k then some (takeReading (s.usage.get? k) up down) else s.usage.get? j
  posted : Posted digest k up down s t
  others : ∀ e, e ≠ k.2 → t.clients.get? e = s.clients.get? e ∧ t.remote e = s.remote e
  used : ∀ m c, s.managedClients.get? k.2 = some m → t.clients.get? k.2 = some c →
    c.usedBytes = m.lastUp + m.lastDown + t.remote k.2
  inbounds : t.nodeInbounds = s.nodeInbounds
  managed : t.managedClients = s.managedClients

section Specs

variable {digest : String → String} {nodeId email : String} {k : String × String} {up down : ℤ}
  {s t : Hub}

/-- The last readings of a row are those that were taken. -/
theorem takeReading_raw (old : Option UsageRow) (way : Way) :
    (takeReading old up down).raw way = way.pick up down := by
  cases way <;> rfl

/-- A reading adds what has not been read before. -/
theorem takeReading_current (old : Option UsageRow) (way : Way) :
    (takeReading old up down).current way =
      old.elim 0 (fun row => row.current way) + unread old up down way := by
  cases way <;> rfl

/-- A reading that charges nothing has nothing unread. -/
theorem unread_eq_zero {old : Option UsageRow} (h : ¬Charges old up down) (way : Way) :
    unread old up down way = 0 := by
  rw [not_or, not_not, not_not] at h
  cases way
  · exact h.1
  · exact h.2

/-- What recomputing the usage of a client writes. -/
structure Recomputed (e : String) (s t : Hub) : Prop where
  frame : ∃ clients, t = { s with clients := clients }
  others : ∀ c, c ≠ e → t.clients.get? c = s.clients.get? c
  used : ∀ m c, s.managedClients.get? e = some m → t.clients.get? e = some c →
    c.usedBytes = m.lastUp + m.lastDown + s.remote e

/-- Recomputing the usage of a client sums its rows. -/
theorem recomputeClientUsage_spec (e : String) (s : Hub) :
    Tx.wp (recomputeClientUsage e) (fun _ t => Recomputed e s t)
      (fun f _ => f ≠ .integrityError) s := by
  simp only [recomputeClientUsage, demandPolicy, Tx.wp_bind, Tx.wp_read, Tx.wp_when, Tx.wp_require,
    Tx.wp_write]
  refine ⟨fun hmanaged => ⟨fun _ => ⟨fun _ => ?_, fun _ => by decide +revert⟩, fun _ => by decide⟩, ?_⟩
  · refine ⟨⟨_, rfl⟩, fun c hc => ?_, fun m c hm hget => ?_⟩
    · rw [Table.get?_update, if_neg hc]
    · rw [Table.get?_update, if_pos rfl] at hget
      obtain ⟨c', _, rfl⟩ := Option.map_eq_some_iff.mp hget
      simp only [hm, Option.elim_some]
      rfl
  · intro hmanaged
    rw [not_not] at hmanaged
    exact ⟨⟨_, rfl⟩, fun _ _ => rfl, fun m c hm => by rw [hm] at hmanaged; cases hmanaged⟩

/-- A row of usage is stored under its key, and the totals of its client follow. -/
theorem Recomputed.took {ledger : Table String LedgerRow}
    (hposted : ∀ t : Hub, t.trafficLedger = ledger → Posted digest k up down s t)
    (h : Recomputed k.2 { s with
      usage := s.usage.upsert k (takeReading (s.usage.get? k) up down) fun _ =>
        takeReading (s.usage.get? k) up down
      trafficLedger := ledger } t) : Took digest k up down s t := by
  obtain ⟨clients, rfl⟩ := h.frame
  refine ⟨fun j => ?_, hposted _ rfl, fun e he => ⟨h.others e he, ?_⟩, h.used, rfl, rfl⟩
  · rw [Table.get?_upsert]
    cases s.usage.get? k <;> rfl
  · change Table.total (s.usage.upsert k _ _) _ = s.usage.total _
    unfold Table.upsert
    cases hk : s.usage.get? k with
    | none =>
        dsimp only
        rw [Table.total_insert hk, if_neg (Ne.symm he), add_zero]
    | some row =>
        dsimp only
        refine Table.total_update_eq fun r => ?_
        rw [if_neg (Ne.symm he), if_neg (Ne.symm he)]

/-- A charge writes one new event to the ledger. -/
theorem chargeLedger_spec (seq du dd : ℤ) (s : Hub) :
    Tx.wp (chargeLedger digest nodeId email seq du dd)
      (fun _ t => s.trafficLedger.get? (eventId digest (nodeId, email) seq) = none ∧
        ∃ r : LedgerRow, (r.upBytes = du ∧ r.downBytes = dd) ∧
          t = { s with trafficLedger :=
            s.trafficLedger.insert (eventId digest (nodeId, email) seq) r })
      (fun f _ => f = .integrityError →
        s.trafficLedger.get? (eventId digest (nodeId, email) seq) ≠ none) s := by
  simp only [chargeLedger, demandPolicy, Tx.wp_bind, Tx.wp_read, Tx.wp_require, Tx.wp_demand,
    Tx.wp_write]
  refine ⟨fun _ => ⟨fun user _ => ⟨fun period _ => ⟨fun hnew => ?_, fun htaken _ => htaken⟩, ?_⟩, ?_⟩, ?_⟩
  · exact ⟨hnew, _, ⟨rfl, rfl⟩, rfl⟩
  · exact fun _ h => by cases h
  · exact fun _ h => by cases h
  · exact fun _ h => by cases h

/-- A reading is charged and taken in one go. -/
theorem chargeReading_spec {row : UsageRow} (hrow : s.usage.get? (nodeId, email) = some row)
    (hinit : row.initialized = true) :
    Tx.wp (chargeReading digest nodeId email up down row)
      (fun _ t => Took digest (nodeId, email) up down s t)
      (fun f _ => f = .integrityError →
        s.trafficLedger.get? (eventId digest (nodeId, email) (s.seqOf (nodeId, email) + 1)) ≠ none)
      s := by
  have hup : unread (s.usage.get? (nodeId, email)) up down .up = counterDelta up row.rawUp := by
    simp [unread, hrow, hinit, Way.pick, UsageRow.raw]
  have hdown : unread (s.usage.get? (nodeId, email)) up down .down =
      counterDelta down row.rawDown := by
    simp [unread, hrow, hinit, Way.pick, UsageRow.raw]
  have hseq : s.seqOf (nodeId, email) = row.seq := by
    simp [Hub.seqOf, hrow]
  have hcharges : (counterDelta up row.rawUp ≠ 0 ∨ counterDelta down row.rawDown ≠ 0) ↔
      Charges (s.usage.get? (nodeId, email)) up down := by
    rw [Charges, hup, hdown]
  have hnext : takeReading (s.usage.get? (nodeId, email)) up down =
      { rawUp := up, rawDown := down
        currentUp := row.currentUp + counterDelta up row.rawUp
        currentDown := row.currentDown + counterDelta down row.rawDown
        seq := if counterDelta up row.rawUp ≠ 0 ∨ counterDelta down row.rawDown ≠ 0 then
          row.seq + 1 else row.seq
        initialized := true } := by
    rw [hrow] at hup hdown ⊢
    simp only [takeReading, Charges, hup, hdown, Option.elim_some, UsageRow.mk.injEq, true_and,
      and_true]
    split
    · rfl
    · exact add_zero _
  simp only [chargeReading, demandPolicy, storeUsage, Tx.wp_bind, Tx.wp_when, Tx.wp_require,
    Tx.wp_write, ← hnext]
  constructor
  · intro hcharge
    rw [if_pos hcharge]
    refine Tx.wp_mono (chargeLedger_spec _ _ _ s) ?_ ?_
    · rintro _ t ⟨hnew, r, ⟨hrup, hrdown⟩, rfl⟩
      refine ⟨fun _ => ?_, fun _ h => by cases h⟩
      refine Tx.wp_mono (recomputeClientUsage_spec email _) (fun _ t h => ?_) fun _ _ h h' => absurd h' h
      refine Recomputed.took (fun t ht => .inr ⟨hcharges.mp hcharge, ?_, r, fun way => ?_, ?_⟩) h
      · rwa [hseq]
      · cases way
        · rw [hup]
          exact hrup
        · rw [hdown]
          exact hrdown
      · rw [ht, hseq]
    · rw [hseq]
      exact fun _ _ h => h
  · intro hidle
    refine ⟨fun _ => ?_, fun _ h => by cases h⟩
    refine Tx.wp_mono (recomputeClientUsage_spec email _) (fun _ t h => ?_) fun _ _ h h' => absurd h' h
    exact Recomputed.took (fun t ht => .inl ⟨fun h => hidle (hcharges.mpr h), ht⟩) h

/-- What one report writes.  It meets a taken event id only if the next id of the row is
taken. -/
theorem applyReading_spec (p : Progress) (s : Hub) :
    Tx.wp (applyReading digest nodeId email up down p)
      (fun q t => q.seen = email :: p.seen ∧ Took digest (nodeId, email) up down s t)
      (fun f _ => f = .integrityError →
        s.trafficLedger.get? (eventId digest (nodeId, email) (s.seqOf (nodeId, email) + 1)) ≠ none)
      s := by
  simp only [applyReading, Tx.wp_bind, Tx.wp_read]
  cases hrow : s.usage.get? (nodeId, email) with
  | none =>
      have hidle : ¬Charges (s.usage.get? (nodeId, email)) up down := by
        simp [Charges, unread, hrow]
      have hnext : takeReading (s.usage.get? (nodeId, email)) up down = ⟨up, down, 0, 0, 0, true⟩ := by
        simp [takeReading, Charges, unread, hrow]
      simp only [storeUsage, Tx.wp_bind, Tx.wp_write, Tx.wp_pure, ← hnext, true_and]
      refine Tx.wp_mono (recomputeClientUsage_spec email _) (fun _ t h => ?_) fun _ _ h h' => absurd h' h
      exact Recomputed.took (fun t ht => .inl ⟨hidle, ht⟩) h
  | some row =>
      dsimp only
      split <;> rename_i hinit
      · have hidle : ¬Charges (s.usage.get? (nodeId, email)) up down := by
          simp [Charges, unread, hrow, hinit]
        have hnext : takeReading (s.usage.get? (nodeId, email)) up down =
            { row with rawUp := up, rawDown := down, initialized := true } := by
          simp [takeReading, Charges, unread, hrow, hinit]
        simp only [storeUsage, Tx.wp_bind, Tx.wp_write, Tx.wp_pure, ← hnext, true_and]
        refine Tx.wp_mono (recomputeClientUsage_spec email _) (fun _ t h => ?_) fun _ _ h h' => absurd h' h
        exact Recomputed.took (fun t ht => .inl ⟨hidle, ht⟩) h
      · simp only [Tx.wp_bind, Tx.wp_pure, true_and]
        exact chargeReading_spec hrow (Bool.eq_true_of_not_eq_false hinit)

end Specs

/-! ## The books -/

/-- No two of some usage rows share a digest. -/
def Separate (digest : String → String) (K : String × String → Prop) : Prop :=
  ∀ j k, K j → K k →
    digest (j.1 ++ "\x00" ++ j.2) = digest (k.1 ++ "\x00" ++ k.2) → j = k

/-- The event id was not written for a Node. -/
def Foreign (digest : String → String) (id : String) : Prop :=
  ∀ k i, id ≠ eventId digest k i

/-- The bytes of a usage row in the ledger, after one of its numbers up to another. -/
def Hub.entered (digest : String → String) (h : Hub) (k : String × String) (way : Way)
    (lo hi : ℤ) : ℤ :=
  h.trafficLedger.between (eventId digest k) (fun r => r.bytes way) lo hi

/-- The usage rows {lit}`K`, the ledger and the clients agree, if the running totals of
a row began after its entry {lit}`mark`. -/
structure Books (digest : String → String) (K : String × String → Prop)
    (mark : String × String → ℤ) (h : Hub) : Prop where
  rows : ∀ k r, h.usage.get? k = some r → K k ∧ ∀ way, 0 ≤ r.raw way ∧ 0 ≤ r.current way
  marked : ∀ k, 0 ≤ mark k ∧ mark k ≤ h.seqOf k
  owned : ∀ id r, h.trafficLedger.get? id = some r → Foreign digest id ∨
    ∃ k i, K k ∧ 0 < i ∧ i ≤ h.seqOf k ∧ id = eventId digest k i
  balanced : ∀ k r, h.usage.get? k = some r → ∀ way,
    r.current way = h.entered digest k way (mark k) r.seq
  used : ∀ e m c, h.managedClients.get? e = some m → h.clients.get? e = some c →
    c.usedBytes = m.lastUp + m.lastDown + h.remote e

section Bookkeeping

variable {digest : String → String} {K : String × String → Prop} {mark : String × String → ℤ}
  {j k : String × String} {up down lo hi : ℤ} {way : Way} {s t : Hub}

/-- The sequence number of a row. -/
theorem Hub.seqOf_of_some {row : UsageRow} (h : s.usage.get? k = some row) :
    s.seqOf k = row.seq := by
  simp [Hub.seqOf, h]

/-- A reading leaves the sequence numbers of the others. -/
theorem Took.seqOf_other (h : Took digest k up down s t) (hne : j ≠ k) : t.seqOf j = s.seqOf j := by
  rw [Hub.seqOf, h.usage, if_neg hne, Hub.seqOf]

/-- A reading counts in its own sequence if it charges something. -/
theorem Took.seqOf_self (h : Took digest k up down s t) :
    t.seqOf k = s.seqOf k + if Charges (s.usage.get? k) up down then 1 else 0 := by
  rw [Hub.seqOf, h.usage, if_pos rfl]
  rfl

/-- A reading decreases no sequence number. -/
theorem Took.seqOf_le (h : Took digest k up down s t) (j : String × String) :
    s.seqOf j ≤ t.seqOf j := by
  by_cases hj : j = k
  · subst hj
    rw [h.seqOf_self]
    split <;> omega
  · rw [h.seqOf_other hj]

/-- The next event id of a row is not taken. -/
theorem Books.fresh (h : Books digest K mark s) (hsep : Separate digest K) (hk : K k) :
    s.trafficLedger.get? (eventId digest k (s.seqOf k + 1)) = none := by
  cases htaken : s.trafficLedger.get? (eventId digest k (s.seqOf k + 1)) with
  | none => rfl
  | some r =>
      have hseq := h.marked k
      rcases h.owned _ _ htaken with hforeign | ⟨j, i, hj, hpos, hle, heq⟩
      · exact absurd rfl (hforeign k _)
      · obtain ⟨hdigest, hnumber⟩ := usageEventId_injective (by omega) hpos.le heq
        rw [← hsep k j hk hj hdigest] at hle
        omega

/-- A report adds its bytes to the entries of its row. -/
theorem Took.entered_self (h : Took digest k up down s t) (hlo : 0 ≤ lo) (hle : lo ≤ s.seqOf k) :
    t.entered digest k way lo (t.seqOf k) =
      s.entered digest k way lo (s.seqOf k) + unread (s.usage.get? k) up down way := by
  rw [h.seqOf_self]
  rcases h.posted with ⟨hidle, hledger⟩ | ⟨hcharge, hnew, r, hbytes, hledger⟩
  · rw [if_neg hidle, unread_eq_zero hidle, Hub.entered, hledger, Hub.entered, add_zero, add_zero]
  · have hold : ∀ i, lo < i → i ≤ s.seqOf k → eventId digest k i ≠ eventId digest k (s.seqOf k + 1) := by
      intro i hi hile heq
      obtain ⟨_, hnumber⟩ := usageEventId_injective (by omega) (by omega) heq
      omega
    rw [if_pos hcharge, Hub.entered, hledger, Table.between_succ hle,
      Table.between_insert_of_ne hnew hold, Table.amount_insert_self hnew, hbytes, Hub.entered]

/-- A report adds nothing to the entries of another row. -/
theorem Took.entered_other (h : Took digest k up down s t) (hsep : Separate digest K) (hk : K k)
    (hj : K j) (hne : j ≠ k) (hlo : 0 ≤ lo) (hseq : 0 ≤ s.seqOf k) :
    t.entered digest j way lo hi = s.entered digest j way lo hi := by
  rcases h.posted with ⟨_, hledger⟩ | ⟨_, hnew, r, _, hledger⟩
  · rw [Hub.entered, hledger, Hub.entered]
  · rw [Hub.entered, hledger, Hub.entered]
    refine Table.between_insert_of_ne hnew fun i hi _ heq => hne ?_
    exact hsep j k hj hk (usageEventId_injective (by omega) (by omega) heq).1

/-- What has not been read before is not negative. -/
theorem unread_nonneg (old : Option UsageRow) (hup : 0 ≤ up) (hdown : 0 ≤ down)
    (hold : ∀ row, old = some row → ∀ way, 0 ≤ row.raw way) (way : Way) :
    0 ≤ unread old up down way := by
  cases old with
  | none => exact le_refl 0
  | some row =>
      have hreport : 0 ≤ way.pick up down := by cases way <;> assumption
      simp only [unread, Option.elim_some, counterDelta]
      split
      · split <;> omega
      · exact le_refl 0

/-- A report keeps the books. -/
theorem Books.took (h : Books digest K mark s) (hsep : Separate digest K) (hk : K k)
    (hup : 0 ≤ up) (hdown : 0 ≤ down) (htook : Took digest k up down s t) :
    Books digest K mark t := by
  have hseq : 0 ≤ s.seqOf k := (h.marked k).1.trans (h.marked k).2
  refine ⟨?_, ?_, ?_, ?_, ?_⟩
  · intro j r hr
    rw [htook.usage] at hr
    by_cases hj : j = k
    · subst hj
      rw [if_pos rfl, Option.some.injEq] at hr
      subst hr
      refine ⟨hk, fun way => ?_⟩
      have hunread := unread_nonneg (s.usage.get? j) hup hdown
        (fun row hrow way => ((h.rows j row hrow).2 way).1) way
      rw [takeReading_raw, takeReading_current]
      constructor
      · cases way <;> assumption
      · cases hrow : s.usage.get? j with
        | none =>
            rw [hrow] at hunread
            simpa using hunread
        | some row =>
            have := ((h.rows j row hrow).2 way).2
            rw [hrow] at hunread
            simp only [Option.elim_some]
            omega
    · rw [if_neg hj] at hr
      exact h.rows j r hr
  · exact fun j => ⟨(h.marked j).1, (h.marked j).2.trans (htook.seqOf_le j)⟩
  · intro id r hid
    have hkept : s.trafficLedger.get? id = some r → Foreign digest id ∨
        ∃ k i, K k ∧ 0 < i ∧ i ≤ t.seqOf k ∧ id = eventId digest k i := by
      intro hold
      refine (h.owned id r hold).imp_right ?_
      rintro ⟨j, i, hj, hpos, hle, heq⟩
      exact ⟨j, i, hj, hpos, hle.trans (htook.seqOf_le j), heq⟩
    rcases htook.posted with ⟨_, hledger⟩ | ⟨hcharge, hnew, r', _, hledger⟩
    · rw [hledger] at hid
      exact hkept hid
    · rw [hledger, Table.get?_insert hnew] at hid
      by_cases heq : id = eventId digest k (s.seqOf k + 1)
      · refine .inr ⟨k, s.seqOf k + 1, hk, by omega, ?_, heq⟩
        rw [htook.seqOf_self, if_pos hcharge]
      · rw [if_neg heq] at hid
        exact hkept hid
  · intro j r hr way
    have hrseq := Hub.seqOf_of_some hr
    rw [← hrseq]
    by_cases hj : j = k
    · subst hj
      rw [htook.entered_self (h.marked j).1 (h.marked j).2]
      rw [htook.usage, if_pos rfl, Option.some.injEq] at hr
      subst hr
      rw [takeReading_current]
      cases hrow : s.usage.get? j with
      | none =>
          have hzero : s.seqOf j = 0 := by simp [Hub.seqOf, hrow]
          have hmark : mark j = 0 := le_antisymm (hzero ▸ (h.marked j).2) (h.marked j).1
          rw [hzero, hmark, Hub.entered, Table.between_self]
          rfl
      | some row =>
          rw [Option.elim_some, h.balanced j row hrow, Hub.seqOf_of_some hrow]
    · rw [htook.usage, if_neg hj] at hr
      rw [htook.entered_other hsep hk (h.rows j r hr).1 hj (h.marked j).1 hseq, hrseq]
      exact h.balanced j r hr way
  · intro e m c hm hc
    rw [htook.managed] at hm
    by_cases he : e = k.2
    · subst he
      exact htook.used m c hm hc
    · obtain ⟨hclient, hremote⟩ := htook.others e he
      rw [hclient] at hc
      rw [hremote]
      exact h.used e m c hm hc

/-- From {lit}`s` to {lit}`t` usage rows were added, removed or given another baseline,
without a change to what they have counted. -/
structure Rebased (K : String × String → Prop) (s t : Hub) : Prop where
  rows : ∀ k r, t.usage.get? k = some r → K k ∧ ∀ way, 0 ≤ r.raw way ∧
    r.current way = (s.usage.get? k).elim 0 fun row => row.current way
  seqOf : ∀ k, t.seqOf k = s.seqOf k
  remote : ∀ e, t.remote e = s.remote e
  ledger : t.trafficLedger = s.trafficLedger
  clients : t.clients = s.clients
  managed : ∀ e m, t.managedClients.get? e = some m → ∃ m', s.managedClients.get? e = some m' ∧
    m.lastUp = m'.lastUp ∧ m.lastDown = m'.lastDown

/-- Another baseline keeps the books. -/
theorem Books.rebased {K' : String × String → Prop} (h : Books digest K mark s)
    (hrebased : Rebased K' s t) (hK : ∀ k, 0 < s.seqOf k → K k → K' k) : Books digest K' mark t := by
  refine ⟨fun k r hr => ⟨(hrebased.rows k r hr).1, fun way => ?_⟩, fun k => ?_, fun id r hid => ?_,
    fun k r hr way => ?_, fun e m c hm hc => ?_⟩
  · obtain ⟨hraw, hcurrent⟩ := (hrebased.rows k r hr).2 way
    refine ⟨hraw, ?_⟩
    rw [hcurrent]
    cases hrow : s.usage.get? k with
    | none => exact le_refl 0
    | some row => exact ((h.rows k row hrow).2 way).2
  · rw [hrebased.seqOf]
    exact h.marked k
  · rw [hrebased.ledger] at hid
    refine (h.owned id r hid).imp_right ?_
    rintro ⟨k, i, hk, hpos, hle, heq⟩
    exact ⟨k, i, hK k (hpos.trans_le hle) hk, hpos, by rwa [hrebased.seqOf], heq⟩
  · rw [((hrebased.rows k r hr).2 way).2, ← Hub.seqOf_of_some hr, hrebased.seqOf, Hub.entered,
      hrebased.ledger]
    cases hrow : s.usage.get? k with
    | none =>
        have hzero : s.seqOf k = 0 := by simp [Hub.seqOf, hrow]
        have hmark : mark k = 0 := le_antisymm (hzero ▸ (h.marked k).2) (h.marked k).1
        rw [hzero, hmark, Table.between_self]
        rfl
    | some row =>
        rw [Option.elim_some, h.balanced k row hrow, Hub.seqOf_of_some hrow]
        rfl
  · obtain ⟨m', hm', hup, hdown⟩ := hrebased.managed e m hm
    rw [hrebased.clients] at hc
    rw [hrebased.remote, hup, hdown]
    exact h.used e m' c hm' hc

/-- Zeroed running totals begin after the last entry of their row. -/
theorem Books.settled (h : Books digest K mark s) (ht : t.trafficLedger = s.trafficLedger)
    (hmanaged : t.managedClients = s.managedClients)
    (hrows : ∀ j, t.usage.get? j = if j = k then (s.usage.get? j).map fun r =>
      { r with rawUp := 0, rawDown := 0, currentUp := 0, currentDown := 0, initialized := true }
      else s.usage.get? j)
    (hused : ∀ m c, s.managedClients.get? k.2 = some m → t.clients.get? k.2 = some c →
      c.usedBytes = m.lastUp + m.lastDown + t.remote k.2)
    (hothers : ∀ e, e ≠ k.2 → t.clients.get? e = s.clients.get? e ∧ t.remote e = s.remote e) :
    Books digest K (fun j => if j = k then s.seqOf k else mark j) t := by
  have hseq : ∀ j, t.seqOf j = s.seqOf j := by
    intro j
    rw [Hub.seqOf, hrows, Hub.seqOf]
    split
    · cases s.usage.get? j <;> rfl
    · rfl
  refine ⟨fun j r hr => ?_, fun j => ?_, fun id r hid => ?_, fun j r hr way => ?_,
    fun e m c hm hc => ?_⟩
  · rw [hrows] at hr
    by_cases hj : j = k
    · rw [if_pos hj] at hr
      obtain ⟨row, hrow, rfl⟩ := Option.map_eq_some_iff.mp hr
      refine ⟨(h.rows j row hrow).1, fun way => ?_⟩
      cases way
      · exact ⟨le_refl 0, le_refl 0⟩
      · exact ⟨le_refl 0, le_refl 0⟩
    · rw [if_neg hj] at hr
      exact h.rows j r hr
  · rw [hseq]
    have hmark := h.marked j
    split <;> rename_i hj
    · subst hj
      exact ⟨hmark.1.trans hmark.2, le_refl _⟩
    · exact hmark
  · rw [ht] at hid
    simp only [hseq]
    exact h.owned id r hid
  · rw [← Hub.seqOf_of_some hr, hseq, Hub.entered, ht]
    rw [hrows] at hr
    by_cases hj : j = k
    · subst hj
      rw [if_pos rfl] at hr
      obtain ⟨row, hrow, rfl⟩ := Option.map_eq_some_iff.mp hr
      rw [if_pos rfl, Table.between_self]
      cases way <;> rfl
    · rw [if_neg hj] at hr
      rw [if_neg hj, h.balanced j r hr, Hub.seqOf_of_some hr]
      rfl
  · rw [hmanaged] at hm
    by_cases he : e = k.2
    · subst he
      exact hused m c hm hc
    · obtain ⟨hclient, hremote⟩ := hothers e he
      rw [hclient] at hc
      rw [hremote]
      exact h.used e m c hm hc

/-- The baseline of a row that has counted nothing. -/
def zeroRow : UsageRow :=
  ⟨0, 0, 0, 0, 0, true⟩

/-- {lit}`INSERT OR IGNORE` of zero baselines. -/
def seedRows (nodeId : String) (emails : List String) (usage : Table (String × String) UsageRow) :
    Table (String × String) UsageRow :=
  emails.foldl (fun u e => u.insert (nodeId, e) zeroRow) usage

/-- An empty row is added where there is none. -/
theorem get?_insert_zeroRow (usage : Table (String × String) UsageRow) (j k : String × String) :
    (usage.insert k zeroRow).get? j =
      if j = k then some ((usage.get? j).getD zeroRow) else usage.get? j := by
  cases hk : usage.get? k with
  | none =>
      rw [Table.get?_insert hk]
      by_cases hj : j = k
      · rw [if_pos hj, if_pos hj, hj, hk]
        rfl
      · rw [if_neg hj, if_neg hj]
  | some row =>
      have hsame : usage.insert k zeroRow = usage := by
        rw [Table.insert, dif_pos]
        by_contra hnot
        rw [Table.get?_eq_none_iff.mpr hnot] at hk
        cases hk
      rw [hsame]
      split <;> rename_i hj
      · rw [hj, hk]
        rfl
      · rfl

/-- Empty rows are added for the clients of a Node. -/
theorem get?_seedRows (nodeId : String) (emails : List String)
    (usage : Table (String × String) UsageRow) (k : String × String) :
    (seedRows nodeId emails usage).get? k =
      if k.1 = nodeId ∧ k.2 ∈ emails then some ((usage.get? k).getD zeroRow)
      else usage.get? k := by
  unfold seedRows
  induction emails generalizing usage with
  | nil => simp
  | cons e emails ih =>
      rw [List.foldl_cons, ih, get?_insert_zeroRow]
      by_cases hk : k = (nodeId, e)
      · subst hk
        simp
      · have hiff : k.1 = nodeId ∧ k.2 ∈ e :: emails ↔ k.1 = nodeId ∧ k.2 ∈ emails := by
          rw [List.mem_cons]
          constructor
          · rintro ⟨hnode, he | he⟩
            · exact absurd (Prod.ext hnode he) hk
            · exact ⟨hnode, he⟩
          · exact fun h => ⟨h.1, .inr h.2⟩
        rw [if_neg hk]
        simp only [hiff]

/-- Empty rows add nothing to the usage. -/
theorem total_seedRows (nodeId : String) (emails : List String)
    (usage : Table (String × String) UsageRow) (e : String) :
    (seedRows nodeId emails usage).total
        (fun k r => if k.2 = e then r.currentUp + r.currentDown else 0) =
      usage.total fun k r => if k.2 = e then r.currentUp + r.currentDown else 0 := by
  unfold seedRows
  induction emails generalizing usage with
  | nil => rfl
  | cons email emails ih =>
      rw [List.foldl_cons, ih]
      cases hk : usage.get? (nodeId, email) with
      | none =>
          rw [Table.total_insert hk]
          simp [zeroRow]
      | some row =>
          rw [Table.insert, dif_pos]
          by_contra hnot
          rw [Table.get?_eq_none_iff.mpr hnot] at hk
          cases hk

/-- Seeding zero baselines is another baseline. -/
theorem Books.seed (h : Books digest K mark s) {nodeId : String} {emails : List String}
    (hK : ∀ e ∈ emails, K (nodeId, e)) :
    Rebased K s { s with usage := seedRows nodeId emails s.usage } := by
  refine ⟨fun k r hr => ?_, fun k => ?_, total_seedRows nodeId emails s.usage, rfl, rfl,
    fun e m hm => ⟨m, hm, rfl, rfl⟩⟩
  · rw [get?_seedRows] at hr
    split at hr <;> rename_i hk
    · rw [Option.some.injEq] at hr
      subst hr
      have hseeded : K k := by
        have hmem := hK k.2 hk.2
        rwa [← hk.1] at hmem
      refine ⟨hseeded, fun way => ?_⟩
      cases hrow : s.usage.get? k with
      | none => cases way <;> exact ⟨le_refl 0, rfl⟩
      | some row => exact ⟨((h.rows k row hrow).2 way).1, rfl⟩
    · rw [hr]
      exact ⟨(h.rows k r hr).1, fun way => ⟨((h.rows k r hr).2 way).1, rfl⟩⟩
  · rw [Hub.seqOf, get?_seedRows, Hub.seqOf]
    split
    · cases s.usage.get? k <;> rfl
    · rfl

end Bookkeeping

/-! ## Whole snapshots -/

/-- The counters that a snapshot reports for a client. -/
def reportOf (items : List TrafficItem) (e : String) : Option (ℤ × ℤ) :=
  items.findSome? fun item => if item.source = .ok e then item.counters.toOption else none

/-- What a report, or none, did to a usage row and its entries. -/
structure Updated (digest : String → String) (k : String × String) (report : Option (ℤ × ℤ))
    (s t : Hub) : Prop where
  usage : t.usage.get? k =
    report.elim (s.usage.get? k) fun c => some (takeReading (s.usage.get? k) c.1 c.2)
  entered : ∀ way lo, 0 ≤ lo → lo ≤ s.seqOf k →
    t.entered digest k way lo (t.seqOf k) = s.entered digest k way lo (s.seqOf k) +
      report.elim 0 fun c => unread (s.usage.get? k) c.1 c.2 way

section Snapshots

variable {digest : String → String} {K : String × String → Prop} {mark : String × String → ℤ}
  {nodeId : String} {allowed : List String} {j k : String × String} {report : Option (ℤ × ℤ)}
  {s t u : Hub}

/-- No reading changes nothing. -/
theorem Updated.refl (digest : String → String) (k : String × String) (s : Hub) :
    Updated digest k none s s :=
  ⟨rfl, fun _ _ _ _ => (add_zero _).symm⟩

/-- Without a reading the sequence number stays. -/
theorem Updated.seqOf_none (h : Updated digest k none s t) : t.seqOf k = s.seqOf k := by
  rw [Hub.seqOf, h.usage]
  rfl

/-- Nothing happened to the row before. -/
theorem Updated.after (hst : Updated digest k none s t) (htu : Updated digest k report t u) :
    Updated digest k report s u := by
  have hrow : t.usage.get? k = s.usage.get? k := hst.usage
  refine ⟨?_, fun way lo hlo hle => ?_⟩
  · rw [htu.usage, hrow]
  · rw [htu.entered way lo hlo (by rwa [hst.seqOf_none]), hst.entered way lo hlo hle, hrow,
      Option.elim_none, add_zero]

/-- A sequence number never decreases. -/
theorem Updated.seqOf_le (h : Updated digest k report s t) : s.seqOf k ≤ t.seqOf k := by
  have husage := h.usage
  cases report with
  | none => exact h.seqOf_none.ge
  | some c =>
      rw [Option.elim_some] at husage
      have hnext : 0 ≤ if Charges (s.usage.get? k) c.1 c.2 then (1 : ℤ) else 0 := by
        split <;> decide
      rw [Hub.seqOf_of_some husage]
      exact le_add_of_nonneg_right hnext

/-- Nothing happened to the row afterwards. -/
theorem Updated.before (hst : Updated digest k report s t) (htu : Updated digest k none t u) :
    Updated digest k report s u := by
  refine ⟨htu.usage.trans hst.usage, fun way lo hlo hlo' => ?_⟩
  rw [htu.entered way lo hlo (hlo'.trans hst.seqOf_le), Option.elim_none, add_zero,
    hst.entered way lo hlo hlo']

/-- A reading that is taken updates its row. -/
theorem Took.updated {c : ℤ × ℤ} (h : Took digest k c.1 c.2 s t) :
    Updated digest k (some c) s t := by
  refine ⟨?_, fun way lo hlo hle => h.entered_self hlo hle⟩
  rw [h.usage, if_pos rfl]
  rfl

/-- A reading that is taken leaves the other rows. -/
theorem Took.updated_other {up down : ℤ} (h : Took digest k up down s t) (hsep : Separate digest K)
    (hbooks : Books digest K mark s) (hk : K k) (hj : K j) (hne : j ≠ k) :
    Updated digest j none s t := by
  refine ⟨?_, fun way lo hlo hle => ?_⟩
  · rw [h.usage, if_neg hne]
    rfl
  · rw [h.seqOf_other hne, Option.elim_none, add_zero]
    exact h.entered_other hsep hk hj hne hlo ((hbooks.marked k).1.trans (hbooks.marked k).2)

/-- An item of another client says nothing about this one. -/
theorem reportOf_cons_other {item : TrafficItem} {e : String} (h : item.source ≠ .ok e)
    (items : List TrafficItem) : reportOf (item :: items) e = reportOf items e := by
  simp [reportOf, h]

/-- The first item of a client is what its report says. -/
theorem reportOf_cons_self {item : TrafficItem} {e : String} {c : ℤ × ℤ} (h : item.source = .ok e)
    (hc : item.counters = .ok c) (items : List TrafficItem) :
    reportOf (item :: items) e = some c := by
  simp [reportOf, h, hc, Except.toOption]

/-- A bad identity is no integrity error. -/
theorem source_ne_integrityError {item : TrafficItem} {f : Failure} (h : item.source = .error f) :
    f ≠ .integrityError := by
  rintro rfl
  unfold TrafficItem.source at h
  split at h <;> cases h

/-- Bad counters are no integrity error. -/
theorem counters_ne_integrityError {item : TrafficItem} {f : Failure}
    (h : item.counters = .error f) : f ≠ .integrityError := by
  rintro rfl
  unfold TrafficItem.counters at h
  split at h
  · split at h <;> cases h
  · cases h

/-- Counters that are read are not negative. -/
theorem counters_nonneg {item : TrafficItem} {c : ℤ × ℤ} (h : item.counters = .ok c) :
    0 ≤ c.1 ∧ 0 ≤ c.2 := by
  unfold TrafficItem.counters at h
  split at h
  · split at h <;> rename_i hvalid
    · cases h
      exact ⟨hvalid.1, hvalid.2.1⟩
    · cases h
  · cases h

/-- The report that a loop over items takes up for a row. -/
def pendingReport (nodeId : String) (allowed seen : List String) (items : List TrafficItem)
    (k : String × String) : Option (ℤ × ℤ) :=
  if k.1 = nodeId ∧ k.2 ∈ allowed ∧ k.2 ∉ seen then reportOf items k.2 else none

/-- What a loop over items did. -/
structure Looped (digest : String → String) (K : String × String → Prop)
    (mark : String × String → ℤ) (nodeId : String) (allowed : List String)
    (items : List TrafficItem) (seen seen' : List String) (s t : Hub) : Prop where
  books : Books digest K mark t
  rows : ∀ k, K k → Updated digest k (pendingReport nodeId allowed seen items k) s t
  seen : ∀ e ∈ allowed, e ∈ seen' ↔ e ∈ seen ∨ (reportOf items e).isSome = true
  inbounds : t.nodeInbounds = s.nodeInbounds
  managed : t.managedClients = s.managedClients

/-- The loop over the items keeps the books and never meets a taken event id. -/
theorem applyItems_spec (hsep : Separate digest K) (hallowed : ∀ e ∈ allowed, K (nodeId, e))
    {items : List TrafficItem} : ∀ {p : Progress} {s : Hub}, Books digest K mark s →
      Tx.wp (applyItems digest nodeId allowed items p)
        (fun q t => Looped digest K mark nodeId allowed items p.seen q.seen s t)
        (fun f _ => f ≠ .integrityError) s := by
  induction items with
  | nil =>
      intro p s hbooks
      rw [applyItems, Tx.wp_pure]
      have hnone : ∀ k, pendingReport nodeId allowed p.seen [] k = none := by
        intro k
        simp [pendingReport, reportOf]
      refine ⟨hbooks, fun k _ => ?_, fun e _ => ?_, rfl, rfl⟩
      · rw [hnone]
        exact .refl digest k s
      · simp [reportOf]
  | cons item items ih =>
      intro p s hbooks
      simp only [applyItems, applyItem, demandPolicy, Tx.wp_bind, Tx.wp_ofExcept]
      refine ⟨fun email hsource => ?_, fun f hf => source_ne_integrityError hf⟩
      by_cases hknown : email ∈ allowed
      · have hk := hallowed email hknown
        rw [if_neg (not_not.mpr hknown)]
        simp only [Tx.wp_bind, Tx.wp_require, Tx.wp_ofExcept]
        refine ⟨fun hunseen => ⟨fun c hc => ?_, fun f hf => counters_ne_integrityError hf⟩,
          fun _ h => by cases h⟩
        refine Tx.wp_mono (applyReading_spec p s) ?_ ?_
        · rintro p' t ⟨hseen, htook⟩
          obtain ⟨hup, hdown⟩ := counters_nonneg hc
          refine Tx.wp_mono (ih (hbooks.took hsep hk hup hdown htook)) (fun q u hloop => ?_)
            fun _ _ h => h
          refine ⟨hloop.books, fun k hkrow => ?_, fun e he => ?_,
            hloop.inbounds.trans htook.inbounds, hloop.managed.trans htook.managed⟩
          · have hrest := hloop.rows k hkrow
            by_cases heq : k = (nodeId, email)
            · subst heq
              have hlater : pendingReport nodeId allowed p'.seen items (nodeId, email) = none := by
                simp [pendingReport, hseen]
              have hnow : pendingReport nodeId allowed p.seen (item :: items) (nodeId, email) =
                  some c := by
                rw [pendingReport, if_pos ⟨rfl, hknown, hunseen⟩]
                exact reportOf_cons_self hsource hc items
              rw [hlater] at hrest
              rw [hnow]
              exact htook.updated.before hrest
            · have hsame : pendingReport nodeId allowed p.seen (item :: items) k =
                  pendingReport nodeId allowed p'.seen items k := by
                unfold pendingReport
                rw [hseen]
                by_cases hnode : k.1 = nodeId
                · have hne : k.2 ≠ email := fun h => heq (Prod.ext hnode h)
                  rw [reportOf_cons_other (by rw [hsource]; simpa using Ne.symm hne)]
                  simp [hne]
                · simp [hnode]
              rw [hsame]
              exact (htook.updated_other hsep hbooks hk hkrow heq).after hrest
          · rw [hloop.seen e he, hseen, List.mem_cons]
            by_cases heq : e = email
            · subst heq
              simp [reportOf_cons_self hsource hc]
            · rw [reportOf_cons_other (by rw [hsource]; simpa using Ne.symm heq)]
              simp [heq]
        · intro f _ hf hintegrity
          exact hf hintegrity (hbooks.fresh hsep hk)
      · rw [if_pos hknown, Tx.wp_pure]
        refine Tx.wp_mono (ih hbooks) (fun q u hloop => ?_) fun _ _ h => h
        have hother : ∀ e ∈ allowed, reportOf (item :: items) e = reportOf items e := by
          intro e he
          refine reportOf_cons_other ?_ items
          rw [hsource]
          rintro ⟨⟩
          exact hknown he
        refine ⟨hloop.books, fun k hk => ?_, fun e he => ?_, hloop.inbounds, hloop.managed⟩
        · have hsame : pendingReport nodeId allowed p.seen (item :: items) k =
              pendingReport nodeId allowed p.seen items k := by
            unfold pendingReport
            split <;> rename_i h
            · exact hother _ h.2.1
            · rfl
          rw [hsame]
          exact hloop.rows k hk
        · rw [hother e he]
          exact hloop.seen e he

/-- What a whole snapshot did to a usage row: it took up the report about it, or none, or
it seeded it. -/
def Imported (digest : String → String) (nodeId : String) (items : List TrafficItem)
    (k : String × String) (s t : Hub) : Prop :=
  Updated digest k (pendingReport nodeId (s.allowedTrafficClients nodeId) [] items k) s t ∨
    (k.1 = nodeId ∧ k.2 ∈ s.allowedTrafficClients nodeId ∧ reportOf items k.2 = none ∧
      s.usage.get? k = none ∧ t.usage.get? k = some zeroRow)

/-- A snapshot keeps the books and never meets a taken event id; one that raises changes
nothing. -/
theorem applyTrafficSnapshot_spec (hsep : Separate digest K)
    (hallowed : ∀ e ∈ s.allowedTrafficClients nodeId, K (nodeId, e)) (hbooks : Books digest K mark s)
    (items : List TrafficItem) (initializeAbsent : Bool) :
    Tx.wp (applyTrafficSnapshot digest nodeId items initializeAbsent)
      (fun _ t => Books digest K mark t ∧ (∀ k, K k → Imported digest nodeId items k s t) ∧
        t.nodeInbounds = s.nodeInbounds ∧ t.managedClients = s.managedClients)
      (fun f t => f ≠ .integrityError ∧ t = s) s := by
  simp only [applyTrafficSnapshot, demandPolicy, Tx.wp_bind, Tx.wp_require, Tx.wp_read,
    Tx.wp_transaction]
  refine ⟨fun _ => ?_, fun _ => ⟨by rintro ⟨⟩, trivial⟩⟩
  generalize halloweds : s.allowedTrafficClients nodeId = allowed at hallowed
  refine Tx.wp_mono (applyItems_spec hsep hallowed hbooks) ?_ fun f _ hf => ⟨hf, trivial⟩
  intro p t hloop
  have hseen : ∀ e ∈ allowed, e ∈ p.seen ↔ (reportOf items e).isSome = true := by
    intro e he
    rw [hloop.seen e he, Progress.start]
    simp
  unfold seedAbsent
  split
  · simp only [Tx.wp_bind, Tx.wp_read, Tx.wp_write, Tx.wp_pure]
    set absent := (allowed.filter fun e => e ∉ p.seen).filter
      fun e => t.usage.get? (nodeId, e) = none with habsent
    have hK : ∀ e ∈ absent, K (nodeId, e) := by
      intro e he
      exact hallowed e (List.mem_of_mem_filter (List.mem_of_mem_filter he))
    have hbooks' := hloop.books.rebased (hloop.books.seed hK) fun _ _ hk => hk
    refine ⟨hbooks', fun k hk => ?_, hloop.inbounds, hloop.managed⟩
    by_cases hseeded : k.1 = nodeId ∧ k.2 ∈ absent
    · obtain ⟨hnode, hmem⟩ := hseeded
      have hin := hmem
      rw [habsent, List.mem_filter, List.mem_filter] at hmem
      obtain ⟨⟨hserved, hunseen⟩, hnone⟩ := hmem
      rw [decide_eq_true_eq] at hunseen hnone
      rw [← hnode] at hnone
      have hreport : reportOf items k.2 = none := by
        rw [hseen k.2 hserved, Bool.not_eq_true, Option.isSome_eq_false_iff,
          Option.isNone_iff_eq_none] at hunseen
        exact hunseen
      have hbefore : s.usage.get? k = none := by
        have hupdated := (hloop.rows k hk).usage
        rw [pendingReport, hreport, ite_self, Option.elim_none] at hupdated
        rw [← hupdated]
        exact hnone
      refine .inr ⟨hnode, halloweds.symm ▸ hserved, hreport, hbefore, ?_⟩
      change (seedRows nodeId absent t.usage).get? k = _
      rw [get?_seedRows, if_pos ⟨hnode, hin⟩, hnone]
      rfl
    · have hseed := hloop.books.seed hK
      have hlater : Updated digest k none t { t with usage := seedRows nodeId absent t.usage } := by
        refine ⟨?_, fun way lo _ _ => ?_⟩
        · rw [get?_seedRows, if_neg hseeded]
          rfl
        · rw [hseed.seqOf]
          exact (add_zero _).symm
      rw [Imported, halloweds]
      exact .inl ((hloop.rows k hk).before hlater)
  · rw [Tx.wp_pure]
    refine ⟨hloop.books, fun k hk => .inl ?_, hloop.inbounds, hloop.managed⟩
    rw [halloweds]
    exact hloop.rows k hk

end Snapshots

end Nodes
end DarkXray
