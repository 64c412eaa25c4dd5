import Mathlib.Algebra.Order.Field.Rat
import Mathlib.Data.Prod.Lex
import Mathlib.Data.List.Sort
import Mathlib.Data.String.Basic
import Mathlib.Tactic.Linarith
import Mathlib.Tactic.NormNum
import DarkXray.Library.Ranks
import DarkXray.Library.Runs
import DarkXray.Library.Tables
import DarkXray.Policy.Basics

/-!
# The guard of simultaneous addresses

The guard reads the addresses from which a client connects.  A client may use as many of them
within a window as its limit says; the addresses that hold a lease are those that were seen
first.

Main results:

- Theorem {lit}`mem_leases_iff`: the leases of a client are its granted addresses of the window.
- Theorem {lit}`judge_spec`: what one observation does to the addresses of a client.
-/

namespace DarkXray
namespace Policy

open Library

/-! ## State -/

/-- A row of {lit}`observations`, which belongs to one Node. -/
structure Observation where
  firstSeen : ℚ
  lastSeen : ℚ
  granted : Bool
deriving DecidableEq

/-- A row of {lit}`bans`. -/
structure BanRow where
  clientId : String
  expiresAt : ℚ
  state : String
deriving DecidableEq

/-- A row of {lit}`events`. -/
structure GuardEvent where
  kind : String
  owner : String
  clientId : String
  ip : String
  detail : String
  time : ℚ
deriving DecidableEq

/-- The tables of the guard: observations by client and address, bans by jail and address. -/
structure GuardDb where
  observations : Table (String × String) Observation
  bans : Table (String × String) BanRow
  events : List GuardEvent

/-- The policy of a client; {lit}`jail` is the one of its ports. -/
structure ClientPolicy where
  owner : String
  limitIp : ℕ
  jail : String
deriving DecidableEq

/-- The policy of a Node; {lit}`direct` says that it sees the original addresses, and has
verified this. -/
structure GuardPolicy where
  normalizeIp : String → Option String
  exemption : String → Option String
  direct : Bool
  windowSeconds : ℚ
  banSeconds : ℚ
  clients : String → Option ClientPolicy

/-- Answers of the guard. -/
inductive Decision where
  | ignored
  | exempt (reason : String)
  | observeOnly
  | banned (expiresAt : ℚ)
  | allow (activeIps limitIp : ℕ)
  | violation
  | enforcementFailed (reason : String)
deriving DecidableEq

/-! ## Leases -/

/-- The granted addresses of a client that were seen after an instant, by the time when they
were seen first. -/
def GuardDb.leases (db : GuardDb) (email : String) (since : ℚ) : List (ℚ ×ₗ String) :=
  ((db.observations.rows.filter fun r =>
    r.1.1 = email && (r.2.granted && decide (since < r.2.lastSeen))).map fun r =>
      toLex (r.2.firstSeen, r.1.2)).insertionSort (· ≤ ·)

/-- The address of a lease. -/
def leaseIp (l : ℚ ×ₗ String) : String :=
  (ofLex l).2

/-- The addresses that may connect: all of them without a limit. -/
def activeIps (limit : ℕ) (leases : List (ℚ ×ₗ String)) : List String :=
  (if limit = 0 then leases else leases.take limit).map leaseIp

/-- An address gets a lease. -/
def grants (limit : ℕ) (leases : List (ℚ ×ₗ String)) (ip : String) : Bool :=
  limit = 0 || ip ∈ activeIps limit leases || (activeIps limit leases).length < limit

/-! ## One observation -/

/-- An event of the same kind is younger than the window. -/
def recentEvent (p : GuardPolicy) (kind email ip : String) (now : ℚ) (db : GuardDb) : Bool :=
  db.events.any fun e =>
    e.kind = kind && e.clientId = email && e.ip = ip && decide (now - p.windowSeconds < e.time)

/-- Note an event. -/
def note (kind : String) (c : ClientPolicy) (email ip detail : String) (now : ℚ) (db : GuardDb) :
    GuardDb :=
  { db with events := db.events ++ [⟨kind, c.owner, email, ip, detail, now⟩] }

/-- The age after which an observation is forgotten. -/
def memory (p : GuardPolicy) : ℚ :=
  max 86400 (p.windowSeconds * 2)

/-- The observation of an address. -/
def seen (email ip : String) (now : ℚ) (granted : Bool) (t : Table (String × String) Observation) :
    Table (String × String) Observation :=
  t.upsert (email, ip) ⟨now, now, granted⟩ fun r => { r with lastSeen := now, granted := granted }

/-- Forget old observations. -/
def forget (p : GuardPolicy) (now : ℚ) (t : Table (String × String) Observation) :
    Table (String × String) Observation :=
  t.filterRows fun _ r => decide (now - memory p ≤ r.lastSeen)

/-- What the transaction of an observation finds. -/
inductive Judgement where
  | banned (expiresAt : ℚ)
  | allowed (activeIps : ℕ)
  | refused
deriving DecidableEq

/-- The transaction of an observation. -/
def judge (p : GuardPolicy) (c : ClientPolicy) (email ip : String) (now : ℚ) :
    Tx GuardDb Failure Judgement :=
  Tx.transaction do
    let ban ← Tx.read fun db => (db.bans.get? (c.jail, ip)).filter fun b =>
      decide (now < b.expiresAt) && b.state = "applied"
    match ban with
    | some b => return .banned b.expiresAt
    | none => do
        let leases ← Tx.read fun db => db.leases email (now - p.windowSeconds)
        let granted := grants c.limitIp leases ip
        Tx.write fun db => { db with observations := seen email ip now granted db.observations }
        let recent ← Tx.read (recentEvent p "violation" email ip now)
        Tx.when (granted = false ∧ recent = false)
          (Tx.write (note "violation" c email ip "distinct recent source IP quota exceeded" now))
        Tx.write fun db => { db with observations := forget p now db.observations }
        if granted = true then
          return .allowed (ip :: activeIps c.limitIp leases).dedup.length
        else return .refused

/-- What happens after a violation; {lit}`executor` is how the firewall answers, if there is
one. -/
def enforce (p : GuardPolicy) (c : ClientPolicy) (executor : Option (Except String Unit))
    (email ip : String) (now : ℚ) : Tx GuardDb Failure Decision :=
  match executor with
  | none => return .violation
  | some (.error reason) => do
      Tx.write (note "enforcement_failed" c email ip (reason.take 500).toString now)
      return .enforcementFailed reason
  | some (.ok _) => do
      let row : BanRow := ⟨email, now + p.banSeconds, "applied"⟩
      Tx.write fun db => { db with bans := db.bans.upsert (c.jail, ip) row fun _ => row }
      return .banned (now + p.banSeconds)

/-- The observation of an address that counts. -/
def observeDirect (p : GuardPolicy) (c : ClientPolicy) (executor : Option (Except String Unit))
    (email ip : String) (now : ℚ) : Tx GuardDb Failure Decision := do
  let judgement ← judge p c email ip now
  match judgement with
  | .banned expiresAt => return .banned expiresAt
  | .allowed n => return .allow n c.limitIp
  | .refused => enforce p c executor email ip now

/-- Without verified addresses the guard only notes that it cannot decide. -/
def observeIndirect (p : GuardPolicy) (c : ClientPolicy) (email ip : String) (now : ℚ) :
    Tx GuardDb Failure Decision := do
  let recent ← Tx.read (recentEvent p "source_ambiguous" email ip now)
  Tx.when (recent = false)
    (Tx.write (note "source_ambiguous" c email ip
      "No IP ban: original packet source is not verified" now))
  return .observeOnly

/-- {lit}`Guard.observe`. -/
def observe (p : GuardPolicy) (executor : Option (Except String Unit)) (email rawIp : String)
    (now : ℚ) : Tx GuardDb Failure Decision := do
  demandPolicy (0 ≤ now ∧ now < 1000000000000000) "Invalid observation time"
  let ip ← Tx.demand (p.normalizeIp rawIp) (.policyError "Invalid IP literal")
  match p.clients email, p.exemption ip with
  | none, _ => return .ignored
  | some _, some reason => return .exempt reason
  | some c, none =>
      if p.direct = true then observeDirect p c executor email ip now
      else observeIndirect p c email ip now

/-! ## The leases of a table -/

section Leases

variable {db : GuardDb} {email : String} {since : ℚ}

/-- The observation of an address. -/
def GuardDb.row (db : GuardDb) (email ip : String) : Option Observation :=
  db.observations.get? (email, ip)

/-- The leases of a client are its granted addresses of the window. -/
theorem mem_leases_iff {l : ℚ ×ₗ String} :
    l ∈ db.leases email since ↔ ∃ r, db.row email (leaseIp l) = some r ∧ r.granted = true ∧
      since < r.lastSeen ∧ r.firstSeen = (ofLex l).1 := by
  rw [GuardDb.leases, List.mem_insertionSort, List.mem_map]
  constructor
  · rintro ⟨⟨⟨e, ip⟩, r⟩, hr, rfl⟩
    simp only [List.mem_filter, Bool.and_eq_true, decide_eq_true_eq] at hr
    obtain ⟨hmem, rfl, hgranted, hlast⟩ := hr
    exact ⟨r, Table.get?_eq_some_iff.mpr hmem, hgranted, hlast, rfl⟩
  · rintro ⟨r, hrow, hgranted, hlast, hfirst⟩
    refine ⟨((email, leaseIp l), r), ?_, ?_⟩
    · simp only [List.mem_filter, Bool.and_eq_true, decide_eq_true_eq]
      exact ⟨Table.get?_eq_some_iff.mp hrow, trivial, hgranted, hlast⟩
    · rw [hfirst]
      rfl

/-- Every address has one lease. -/
theorem nodup_leaseIps : ((db.leases email since).map leaseIp).Nodup := by
  have hperm := (List.perm_insertionSort (· ≤ ·) ((db.observations.rows.filter fun r =>
    r.1.1 = email && (r.2.granted && decide (since < r.2.lastSeen))).map fun r =>
      toLex (r.2.firstSeen, r.1.2))).map leaseIp
  rw [GuardDb.leases, hperm.nodup_iff, List.map_map]
  have hkeys : ((db.observations.rows.filter fun r =>
      r.1.1 = email && (r.2.granted && decide (since < r.2.lastSeen))).map Prod.fst).Nodup :=
    (List.filter_sublist.map Prod.fst).nodup db.observations.nodupKeys
  have hips : (((db.observations.rows.filter fun r =>
      r.1.1 = email && (r.2.granted && decide (since < r.2.lastSeen))).map Prod.fst).map
        Prod.snd).Nodup := by
    refine List.Nodup.map_on (fun x hx y hy hxy => ?_) hkeys
    have hemail : ∀ k ∈ (db.observations.rows.filter fun r =>
        r.1.1 = email && (r.2.granted && decide (since < r.2.lastSeen))).map Prod.fst,
          k.1 = email := by
      intro k hk
      obtain ⟨r, hr, rfl⟩ := List.mem_map.mp hk
      simp only [List.mem_filter, Bool.and_eq_true, decide_eq_true_eq] at hr
      exact hr.2.1
    exact Prod.ext ((hemail x hx).trans (hemail y hy).symm) hxy
  rwa [List.map_map] at hips

/-- No lease of a client is listed twice. -/
theorem nodup_leases : (db.leases email since).Nodup :=
  List.Nodup.of_map leaseIp nodup_leaseIps

/-- Leases are sorted by first sight, then by address. -/
theorem pairwise_leases : (db.leases email since).Pairwise (· < ·) := by
  have hsorted : (db.leases email since).Pairwise (· ≤ ·) := List.pairwise_insertionSort _ _
  exact hsorted.and nodup_leases |>.imp fun h => lt_of_le_of_ne h.1 h.2

/-- A later window has fewer leases. -/
theorem leases_mono {since' : ℚ} (h : since ≤ since') :
    ∀ l ∈ db.leases email since', l ∈ db.leases email since := by
  intro l hl
  obtain ⟨r, hrow, hgranted, hlast, hfirst⟩ := mem_leases_iff.mp hl
  exact mem_leases_iff.mpr ⟨r, hrow, hgranted, h.trans_lt hlast, hfirst⟩

end Leases

/-! ## What one observation does -/

/-- The observation of an address, after it was seen. -/
def seenRow (old : Option Observation) (now : ℚ) (granted : Bool) : Observation :=
  ⟨old.elim now Observation.firstSeen, now, granted⟩

/-- The address was seen, got a lease or not, and old observations were forgotten. -/
structure Sighted (p : GuardPolicy) (email ip : String) (now : ℚ) (granted : Bool)
    (db db' : GuardDb) : Prop where
  self : db'.row email ip = some (seenRow (db.row email ip) now granted)
  other : ∀ ip', ip' ≠ ip →
    db'.row email ip' = (db.row email ip').filter fun r => decide (now - memory p ≤ r.lastSeen)

section Observe

variable {p : GuardPolicy} {c : ClientPolicy} {email ip : String} {now : ℚ} {db : GuardDb}

theorem memory_pos (p : GuardPolicy) : 0 < memory p :=
  lt_max_of_lt_left (by norm_num)

/-- The memory is at least as long as the window. -/
theorem window_le_memory (hwindow : 0 ≤ p.windowSeconds) : p.windowSeconds ≤ memory p :=
  le_max_of_le_right (by linarith)

/-- No ban of the address is in force. -/
def GuardDb.Unbanned (db : GuardDb) : Prop :=
  ∀ k b, db.bans.get? k = some b → b.state ≠ "applied"

/-- What is seen is in the memory after the old observations were forgotten. -/
theorem sighted_forget (granted : Bool) {events : List GuardEvent} :
    Sighted p email ip now granted db
      ⟨forget p now (seen email ip now granted db.observations), db.bans, events⟩ := by
  have hseen : ∀ ip', (seen email ip now granted db.observations).get? (email, ip') =
      if ip' = ip then some (seenRow (db.row email ip) now granted) else db.row email ip' := by
    intro ip'
    rw [seen, Table.get?_upsert]
    by_cases hip : ip' = ip
    · subst hip
      rw [if_pos rfl, if_pos rfl, GuardDb.row]
      cases db.observations.get? (email, ip') with
      | none => rfl
      | some r => rfl
    · rw [if_neg hip, if_neg (by simpa using hip), GuardDb.row]
  have hpos := memory_pos p
  constructor
  · rw [GuardDb.row, forget, Table.get?_filterRows, hseen, if_pos rfl, Option.filter_some,
      if_pos (decide_eq_true _)]
    rw [seenRow]
    linarith
  · intro ip' hip
    rw [GuardDb.row, forget, Table.get?_filterRows, hseen, if_neg hip]

/-- What one observation does to the addresses of a client. -/
theorem judge_spec (p : GuardPolicy) (c : ClientPolicy) (email ip : String) (now : ℚ)
    (hbans : db.Unbanned) :
    ∃ n, (judge p c email ip now db).1 = .ok (if grants c.limitIp
        (db.leases email (now - p.windowSeconds)) ip = true then .allowed n else .refused) ∧
      Sighted p email ip now (grants c.limitIp (db.leases email (now - p.windowSeconds)) ip) db
        (judge p c email ip now db).2 ∧
      (judge p c email ip now db).2.bans = db.bans := by
  have hban : ((db.bans.get? (c.jail, ip)).filter fun b =>
      decide (now < b.expiresAt) && b.state = "applied") = none := by
    rw [Option.filter_eq_none_iff]
    intro b hb
    simp [hbans _ b hb]
  unfold judge Tx.transaction
  simp only [Tx.read_bind, hban, Tx.write_bind]
  generalize grants c.limitIp (db.leases email (now - p.windowSeconds)) ip = granted
  cases granted with
  | true =>
      refine ⟨_, rfl, ?_, rfl⟩
      exact sighted_forget true
  | false =>
      cases hrecent : recentEvent p "violation" email ip now { db with
          observations := seen email ip now false db.observations } with
      | true => exact ⟨0, rfl, sighted_forget false, rfl⟩
      | false => exact ⟨0, rfl, sighted_forget false, rfl⟩

end Observe

end Policy
end DarkXray
