import DarkXray.Library.Tables
import DarkXray.Policy.Basics

/-!
# The Hub's accounting lease

An armed Agent serves customers only while it holds a lease.  Each traffic report
carries a fresh challenge; the Hub returns it once the report is accounted for,
and the Agent then holds the lease for one minute from the time of the challenge.
The lease lives in memory only; what is durable is that it is required.

Main results:

- Theorem {lit}`HubLease.renew_ok`: an acknowledgement is a repeated one, or grants
  a challenge that is pending, recent and newer than the last granted one.
- Theorem {lit}`HubLease.length_challenge`: at most 64 challenges are pending.
-/

namespace DarkXray
namespace Nodes

open Library Policy

/-! ## Data -/

/-- A second of {lit}`lease_clock`, which counts nanoseconds. -/
def second : ℕ := 1000000000

/-- {lit}`LEASE_SECONDS`. -/
def leaseSeconds : ℕ := 60 * second

/-- {lit}`CHALLENGE_SECONDS`. -/
def challengeSeconds : ℕ := 30 * second

/-- A challenge as {lit}`challenge` issues it. -/
structure Challenge where
  token : String
  issued : ℕ
  sequence : ℕ
deriving DecidableEq, Repr

/-- The body of a request to renew; {lit}`other` has other keys or is no dictionary. -/
inductive LeaseBody where
  | keys (challenge revision hash controlRevision : Value)
  | other
deriving DecidableEq, Repr

/-- A body whose values have the right types. -/
structure LeaseAck where
  challenge : String
  revision : ℤ
  hash : String
  controlRevision : ℤ
deriving DecidableEq, Repr

/-- The Agent's applied state and command revision, as they are in force. -/
structure InForce where
  appliedRevision : ℤ
  appliedHash : String
  lastError : String
  controlRevision : ℤ
deriving DecidableEq, Repr

/-- An acknowledgement names the configuration in force. -/
structure LeaseAck.Names (ack : LeaseAck) (state : InForce) : Prop where
  revision : ack.revision = state.appliedRevision
  hash : ack.hash = state.appliedHash
  healthy : state.lastError = ""
  controlRevision : ack.controlRevision = state.controlRevision

instance (ack : LeaseAck) (state : InForce) : Decidable (ack.Names state) :=
  decidable_of_iff (ack.revision = state.appliedRevision ∧ ack.hash = state.appliedHash ∧
      state.lastError = "" ∧ ack.controlRevision = state.controlRevision)
    ⟨fun ⟨h, h', h'', h'''⟩ => ⟨h, h', h'', h'''⟩, fun ⟨h, h', h'', h'''⟩ => ⟨h, h', h'', h'''⟩⟩

/-- {lit}`HubLease`; a pending challenge is stored under its token. -/
structure HubLease where
  required : Bool
  pending : Table String (ℕ × ℕ)
  deadline : ℕ
  sequence : ℕ
  lastSequence : ℕ
  accepted : Option LeaseAck
  tripRecorded : Bool
  trips : ℕ
  lastError : String

/-- States that {lit}`status` reports. -/
inductive LeaseState where
  | legacy
  | active
  | expired
  | awaitingHub
deriving DecidableEq, Repr

/-- {lit}`status`; {lit}`remaining` is not yet rounded. -/
structure LeaseStatus where
  required : Bool
  valid : Bool
  state : LeaseState
  maxSeconds : ℕ
  remaining : ℕ
  trips : ℕ
  lastError : String
deriving DecidableEq, Repr

/-- What an accepted request to renew leaves and answers; {lit}`granted` is the
challenge that it grants, if it is not a duplicate. -/
structure Renewal where
  lease : HubLease
  granted : Option Challenge
  status : LeaseStatus

/-- {lit}`duplicate` of the answer. -/
def Renewal.duplicate (r : Renewal) : Bool :=
  r.granted.isNone

namespace HubLease

/-- {lit}`HubLease.__init__` over the durable row, in which {lit}`required` is set. -/
def init (required : Bool) (trips : ℕ) (lastError : String) : HubLease where
  required := required
  pending := .empty
  deadline := 0
  sequence := 0
  lastSequence := 0
  accepted := none
  tripRecorded := false
  trips := trips
  lastError := lastError

/-- {lit}`allowed` at a time. -/
def allowed (l : HubLease) (now : ℕ) : Bool :=
  !l.required || decide (now < l.deadline)

/-- {lit}`status` at a time. -/
def status (l : HubLease) (now : ℕ) : LeaseStatus where
  required := l.required
  valid := l.allowed now
  state :=
    if l.required = false then .legacy
    else if 0 < l.deadline - now then .active
    else if l.deadline ≠ 0 then .expired
    else .awaitingHub
  maxSeconds := 60
  remaining := l.deadline - now
  trips := l.trips
  lastError := l.lastError

/-! ## Challenges -/

/-- The oldest rows go until fewer than 64 are left. -/
def evictRows {ρ : Type} : List ρ → List ρ
  | [] => []
  | row :: rows => if 64 ≤ (row :: rows).length then evictRows rows else row :: rows

theorem evictRows_sublist {ρ : Type} (rows : List ρ) : (evictRows rows).Sublist rows := by
  induction rows with
  | nil => exact .refl []
  | cons row rows ih =>
      rw [evictRows]
      split
      · exact ih.cons row
      · exact .refl _

theorem length_evictRows {ρ : Type} (rows : List ρ) : (evictRows rows).length < 64 := by
  induction rows with
  | nil => simp [evictRows]
  | cons row rows ih =>
      rw [evictRows]
      split
      · exact ih
      · omega

/-- The bound on the pending challenges. -/
def evict (pending : Table String (ℕ × ℕ)) : Table String (ℕ × ℕ) where
  rows := evictRows pending.rows
  nodupKeys := ((evictRows_sublist pending.rows).map Prod.fst).nodup pending.nodupKeys

/-- {lit}`challenge` at a time; {lit}`token` is the random text. -/
def challenge (l : HubLease) (now : ℕ) (token : String) : HubLease :=
  let recent := l.pending.filterRows fun _ value => now ≤ value.1 + challengeSeconds
  let row := (now, l.sequence + 1)
  { l with
    sequence := l.sequence + 1
    pending := (evict recent).upsert token row fun _ => row }

/-! ## Renewals -/

/-- The checks of {lit}`renew` on the types of the body. -/
def parseAck : LeaseBody → Except Failure LeaseAck
  | .other => .error (.policyError "Invalid accounting lease acknowledgement")
  | .keys (.str challenge) (.int revision) (.str hash) (.int controlRevision) =>
      if hexDigits 64 challenge = true ∧ 1 ≤ revision then
        .ok ⟨challenge, revision, hash, controlRevision⟩
      else .error (.policyError "Invalid accounting lease identity")
  | .keys _ _ _ _ => .error (.policyError "Invalid accounting lease identity")

/-- The last granted challenge is acknowledged again. -/
def repeats (l : HubLease) (ack : LeaseAck) : Bool :=
  l.accepted.any fun old => ack.challenge = old.challenge

/-- The pending challenge of an acknowledgement, if it may be granted. -/
def grantable (l : HubLease) (now : ℕ) (ack : LeaseAck) : Except Failure Challenge :=
  match l.pending.get? ack.challenge with
  | none => .error (.policyError "Accounting lease challenge is expired, stale or unknown")
  | some (issued, sequence) =>
      if sequence ≤ l.lastSequence ∨ issued + challengeSeconds < now ∨ now < issued then
        .error (.policyError "Accounting lease challenge is expired, stale or unknown")
      else .ok ⟨ack.challenge, issued, sequence⟩

/-- The lease after a grant. -/
def grant (l : HubLease) (c : Challenge) (ack : LeaseAck) : HubLease :=
  { l with
    required := true
    deadline := c.issued + leaseSeconds
    lastSequence := c.sequence
    accepted := some ack
    tripRecorded := false
    pending := l.pending.filterRows fun _ value => c.sequence < value.2 }

/-- {lit}`renew` at a time; {lit}`durable` says whether the database takes the latch. -/
def renew (l : HubLease) (now : ℕ) (body : LeaseBody) (state : InForce) (durable : Bool) :
    Except Failure Renewal := do
  let ack ← parseAck body
  ensure (ack.Names state)
    (.policyError "Accounting lease configuration or control revision changed")
  if l.repeats ack then
    ensure (l.accepted = some ack)
      (.policyError "Conflicting duplicate accounting acknowledgement")
    return ⟨l, none, l.status now⟩
  else
    let c ← l.grantable now ack
    ensure (l.required = true ∨ durable = true) .databaseError
    return ⟨l.grant c ack, some c, (l.grant c ack).status now⟩

/-- {lit}`record_trip`. -/
def recordTrip (l : HubLease) (error : String) (durable : Bool) : Except Failure HubLease :=
  if l.tripRecorded then .ok l
  else if durable then
    .ok { l with
      trips := l.trips + 1
      lastError := (error.take 500).toString
      tripRecorded := true }
  else .error .databaseError

/-! ## What the operations do -/

variable {l l' : HubLease} {now : ℕ} {body : LeaseBody} {state : InForce} {durable : Bool}
  {token error : String} {r : Renewal} {row : ℕ × ℕ}

/-- At most 64 challenges are pending. -/
theorem length_challenge (l : HubLease) (now : ℕ) (token : String) :
    (l.challenge now token).pending.rows.length ≤ 64 := by
  apply (Table.length_upsert_le _ _ _ _).trans
  exact length_evictRows _

/-- A pending challenge is the new one or was pending before. -/
theorem get?_challenge {other : String}
    (h : (l.challenge now token).pending.get? other = some row) :
    other = token ∧ row = (now, l.sequence + 1) ∨ l.pending.get? other = some row := by
  simp only [challenge, Table.get?_upsert] at h
  by_cases hnew : other = token
  · left
    rw [if_pos hnew] at h
    generalize (evict _).get? token = old at h
    cases old <;> exact ⟨hnew, (Option.some.inj h).symm⟩
  · right
    rw [if_neg hnew, Table.get?_eq_some_iff] at h
    have hrecent := (evictRows_sublist _).subset h
    exact Table.get?_eq_some_iff.mpr (List.mem_of_mem_filter hrecent)

/-- An acknowledgement is a repeated one, which changes nothing, or grants a challenge
that is pending, recent and newer than the last granted one. -/
theorem renew_ok (h : l.renew now body state durable = .ok r) :
    ∃ ack, parseAck body = .ok ack ∧ ack.Names state ∧
      (r.granted = none ∧ r.lease = l ∨
        ∃ c, r.granted = some c ∧ r.lease = l.grant c ack ∧
          l.pending.get? c.token = some (c.issued, c.sequence) ∧ c.token = ack.challenge ∧
          l.lastSequence < c.sequence ∧ c.issued ≤ now ∧ now ≤ c.issued + challengeSeconds) := by
  obtain ⟨ack, hack, h⟩ := except_bind_ok_iff.mp h
  obtain ⟨_, hnames, h⟩ := except_bind_ok_iff.mp h
  refine ⟨ack, hack, ensure_ok_iff.mp hnames, ?_⟩
  split at h
  · left
    obtain ⟨_, -, h⟩ := except_bind_ok_iff.mp h
    cases h
    exact ⟨rfl, rfl⟩
  · right
    obtain ⟨c, hc, h⟩ := except_bind_ok_iff.mp h
    obtain ⟨_, -, h⟩ := except_bind_ok_iff.mp h
    cases h
    simp only [grantable] at hc
    split at hc
    · cases hc
    · rename_i issued sequence hpending
      split at hc <;> rename_i hfresh
      · cases hc
      · cases hc
        rw [not_or, not_or, not_le, not_lt, not_lt] at hfresh
        exact ⟨_, rfl, rfl, hpending, rfl, hfresh.1, hfresh.2.2, hfresh.2.1⟩

/-- A recorded trip changes nothing but the record of trips. -/
theorem recordTrip_ok (h : l.recordTrip error durable = .ok l') :
    l'.tripRecorded = true ∧
      l' = { l with tripRecorded := true, trips := l'.trips, lastError := l'.lastError } := by
  simp only [recordTrip] at h
  split at h <;> rename_i htrip
  · cases h
    exact ⟨htrip, by rw [← htrip]⟩
  · split at h <;> cases h
    exact ⟨rfl, rfl⟩

end HubLease
end Nodes
end DarkXray
