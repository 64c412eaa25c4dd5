import DarkXray.Library.Staircase
import DarkXray.Policy.Basics

/-!
# Unlimited entitlements

The consumable credit for unlimited traffic: one unit is one IP-user for thirty
days.  An entitlement stores which tier of simultaneous IPs is bought for which
time, a pending duration whose clock has not started, and a cumulative counter of
bought IP-seconds from which the units are rounded up.

Main results:

- Theorem {lit}`planChange_ok`: an accepted change took one of the four branches
  of {lit}`Accepted`, which says what each of them checks, stores and charges.
-/

namespace DarkXray
namespace Credit

open Library Library.Staircase Policy

/-- {lit}`DAY` in seconds. -/
def day : ℤ :=
  86400

/-- {lit}`MONTH` in seconds. -/
def month : ℤ :=
  30 * day

/-- {lit}`MAX_DAYS`. -/
def maxDays : ℤ :=
  3650

/-- {lit}`units_for_days`. -/
def unitsForDays (ipLimit durationDays : ℤ) : Except Failure ℤ := do
  let ips ← integer (.int ipLimit) 1 1000
  let days ← integer (.int durationDays) 1 maxDays
  return (ips * days + 29) / 30

/-- The stored state of one client's unlimited service. -/
structure Entitlement where
  segments : List Segment
  seconds : ℤ
  units : ℤ
  pendingSeconds : ℤ
  pendingIps : ℤ
  legacyUntimed : Bool
  legacyIps : ℤ
deriving DecidableEq, Repr

/-- {lit}`_empty`. -/
def Entitlement.empty : Entitlement where
  segments := []
  seconds := 0
  units := 0
  pendingSeconds := 0
  pendingIps := 0
  legacyUntimed := false
  legacyIps := 0

/-! ## Buying uncovered capacity -/

/-- The part of the segments that lies after {lit}`start` and has a tier. -/
def clip (start : ℤ) (segments : List Segment) : List Segment :=
  (segments.filter fun s => start < s.stop && 0 < s.level).map
    fun s => { s with start := max start s.start }

/-- The sorted set of all ends of the segments and of the requested time. -/
def breakpoints (segments : List Segment) (start stop : ℤ) : List ℤ :=
  (start :: stop :: segments.flatMap fun s => [s.start, s.stop]).dedup.insertionSort (· ≤ ·)

/-- What the sweep has built so far; {lit}`merged` is kept newest segment first. -/
structure Sweep where
  merged : List Segment
  added : ℤ
deriving DecidableEq, Repr

/-- One round of the loop over the pieces between neighbouring points. -/
def sweepPiece (segments : List Segment) (start stop ips : ℤ) (w : Sweep) (piece : ℤ × ℤ) :
    Sweep :=
  let a := piece.1
  let b := piece.2
  if b ≤ a then w
  else
    let old := levelOver segments a b
    let requested := if start ≤ a ∧ b ≤ stop then ips else 0
    let new := max old requested
    { merged := if new ≠ 0 then push w.merged a b new else w.merged
      added := w.added + max 0 (requested - old) * (b - a) }

/-- The loop over all pieces. -/
def sweep (segments : List Segment) (start stop ips : ℤ) (points : List ℤ) (w : Sweep) : Sweep :=
  (points.zip points.tail).foldl (sweepPiece segments start stop ips) w

/-- {lit}`_cover`: buy only uncovered capacity; preserve different IP tiers over
time. -/
def cover (segments : List Segment) (start stop ips : ℤ) : Except Failure (List Segment × ℤ) :=
  let segments := clip start segments
  let w := sweep segments start stop ips (breakpoints segments start stop) ⟨[], 0⟩
  if 4096 < w.merged.length then
    .error (.policyError "Too many unlimited entitlement changes; contact the Owner")
  else .ok (w.merged.reverse, w.added)

/-! ## Changing a plan -/

/-- The arguments of {lit}`plan_change` next to the stored state. -/
structure PlanCall where
  quotaBytes : ℤ
  ipLimit : ℤ
  expiresAt : ℤ
  now : ℤ
  durationDays : Value
  creation : Bool
deriving DecidableEq, Repr

/-- The common end of the edits that buy time: raise the cumulative counter and
round the units up. -/
def bill (out : Entitlement) (added oldUnits : ℤ) : Except Failure (Entitlement × ℤ) := do
  let seconds ← integer (.int (out.seconds + added))
  let units := (seconds + month - 1) / month
  return ({ out with seconds := seconds, units := units }, max 0 (units - oldUnits))

/-- A volumetric configuration drops the bought time and costs nothing. -/
def dropTime (out : Entitlement) : Entitlement :=
  { out with segments := [], pendingSeconds := 0, pendingIps := 0, legacyUntimed := false }

/-- The first configuration without an end buys a duration that has not started. -/
def planCreatePending (out : Entitlement) (ipLimit : ℤ) (durationDays : Value) :
    Except Failure (Entitlement × ℤ) := do
  ensure (durationDays ≠ .none)
    (.policyError "Unlimited service requires a finite duration")
  let days ← integer durationDays 1 maxDays
  let seconds := days * day
  let units ← unitsForDays ipLimit days
  return ({ out with
    pendingSeconds := seconds, pendingIps := ipLimit, seconds := seconds * ipLimit,
    units := units }, units)

/-- An edit that keeps the end open may only raise the tier of a pending duration. -/
def planPending (out : Entitlement) (ipLimit : ℤ) : Except Failure (Entitlement × ℤ) := do
  let pending := out.pendingSeconds
  ensure (pending ≠ 0)
    (.policyError "Unlimited time is not supported by user-month credit")
  let added := max 0 (ipLimit - out.pendingIps) * pending
  bill { out with pendingIps := max ipLimit out.pendingIps } added out.units

/-- The state from which a timed change buys: a legacy service without an end
holds its tier, and a pending duration starts now. -/
def activate (out : Entitlement) (expiresAt now : ℤ) : Entitlement :=
  let out :=
    if out.legacyUntimed then
      { out with
        segments := [⟨now, max now expiresAt, if out.legacyIps = 0 then 1000 else out.legacyIps⟩]
        legacyUntimed := false }
    else out
  if out.pendingSeconds ≠ 0 then
    { out with
      segments := [⟨now, now + out.pendingSeconds, out.pendingIps⟩]
      pendingSeconds := 0
      pendingIps := 0 }
  else out

/-- An edit with an end buys what is not covered from now up to that end. -/
def planTimed (out : Entitlement) (c : PlanCall) : Except Failure (Entitlement × ℤ) := do
  ensure (¬(c.creation = true ∧ c.expiresAt ≤ c.now))
    (.policyError "Unlimited service expiration must be in the future")
  ensure (c.expiresAt - c.now ≤ maxDays * day + day)
    (.policyError "Unlimited duration exceeds the supported range")
  let started := activate out c.expiresAt c.now
  let (segments, added) ← cover started.segments c.now (max c.now c.expiresAt) c.ipLimit
  bill { started with segments := segments } added out.units

/-- A duration is optional, but one that is given has to be in range. -/
def checkDuration (durationDays : Value) : Except Failure Unit :=
  if durationDays = .none then .ok ()
  else discard (integer durationDays 1 maxDays)

/-- {lit}`plan_change`: the pure quote for one configuration. -/
def planChange (state : Option Entitlement) (c : PlanCall) : Except Failure (Entitlement × ℤ) := do
  let _ ← integer (.int c.quotaBytes)
  let _ ← integer (.int c.ipLimit) 0 1000
  let _ ← integer (.int c.expiresAt)
  let out := state.getD .empty
  if 0 < c.quotaBytes then
    return (dropTime out, 0)
  else do
    ensure (c.ipLimit ≠ 0) (.policyError
      "Unlimited-traffic service requires a finite IP-user count; unlimited IP is only available for volumetric plans")
    checkDuration c.durationDays
    if c.creation = true ∧ c.expiresAt = 0 then planCreatePending out c.ipLimit c.durationDays
    else if c.expiresAt = 0 then planPending out c.ipLimit
    else planTimed out c

/-! ## What an accepted change does -/

/-- The counters after a purchase of {lit}`added` IP-seconds. -/
structure Billed (out : Entitlement) (added oldUnits : ℤ) (new : Entitlement) (debit : ℤ) :
    Prop where
  inRange : 0 ≤ out.seconds + added
  state : new = { out with
    seconds := out.seconds + added, units := (out.seconds + added + month - 1) / month }
  debit : debit = max 0 (new.units - oldUnits)

/-- Accepted changes, by the branch that accepts them. -/
inductive Accepted (out : Entitlement) (c : PlanCall) : Entitlement → ℤ → Prop
  | volume : 0 < c.quotaBytes → Accepted out c (dropTime out) 0
  | createPending {days : ℤ} :
      c.quotaBytes = 0 → 0 < c.ipLimit → c.creation = true → c.expiresAt = 0 →
      1 ≤ days → days ≤ maxDays →
      Accepted out c
        { out with
          pendingSeconds := days * day, pendingIps := c.ipLimit,
          seconds := days * day * c.ipLimit, units := (c.ipLimit * days + 29) / 30 }
        ((c.ipLimit * days + 29) / 30)
  | pending {new : Entitlement} {debit : ℤ} :
      c.quotaBytes = 0 → 0 < c.ipLimit → c.expiresAt = 0 → out.pendingSeconds ≠ 0 →
      Billed { out with pendingIps := max c.ipLimit out.pendingIps }
        (max 0 (c.ipLimit - out.pendingIps) * out.pendingSeconds) out.units new debit →
      Accepted out c new debit
  | timed {segments : List Segment} {added : ℤ} {new : Entitlement} {debit : ℤ} :
      c.quotaBytes = 0 → 0 < c.ipLimit → 0 < c.expiresAt →
      ¬(c.creation = true ∧ c.expiresAt ≤ c.now) → c.expiresAt - c.now ≤ maxDays * day + day →
      cover (activate out c.expiresAt c.now).segments c.now (max c.now c.expiresAt) c.ipLimit =
        .ok (segments, added) →
      Billed { activate out c.expiresAt c.now with segments := segments } added out.units
        new debit →
      Accepted out c new debit

/-- What an accepted bill charges. -/
theorem bill_ok {out new : Entitlement} {added oldUnits debit : ℤ}
    (h : bill out added oldUnits = .ok (new, debit)) : Billed out added oldUnits new debit := by
  simp only [bill, except_bind_ok_iff, integer_ok_iff, except_pure_ok_iff] at h
  rcases h with ⟨seconds, ⟨hseconds, hlo, -⟩, hnew⟩
  obtain rfl : out.seconds + added = seconds := by simpa using hseconds
  simp only [Prod.mk.injEq] at hnew
  rcases hnew with ⟨rfl, rfl⟩
  exact ⟨hlo, rfl, rfl⟩

/-- Days are billed in units of thirty, rounded up. -/
theorem unitsForDays_ok {ipLimit days units : ℤ} (h : unitsForDays ipLimit days = .ok units) :
    units = (ipLimit * days + 29) / 30 := by
  simp only [unitsForDays, except_bind_ok_iff, integer_ok_iff, except_pure_ok_iff,
    Value.int.injEq] at h
  rcases h with ⟨_, ⟨rfl, -⟩, _, ⟨rfl, -⟩, rfl⟩
  rfl

/-- A new plan that starts with its first use. -/
private theorem planCreatePending_ok {out : Entitlement} {c : PlanCall} {new : Entitlement}
    {debit : ℤ} (hquota : c.quotaBytes = 0) (hips : 0 < c.ipLimit)
    (hcreate : c.creation = true ∧ c.expiresAt = 0)
    (h : planCreatePending out c.ipLimit c.durationDays = .ok (new, debit)) :
    Accepted out c new debit := by
  simp only [planCreatePending, except_bind_ok_iff, ensure_ok_iff, integer_ok_iff,
    except_pure_ok_iff, Prod.mk.injEq] at h
  rcases h with ⟨_, _, days, ⟨_, hlo, hhi⟩, units, hunits, rfl, rfl⟩
  rw [unitsForDays_ok hunits]
  exact .createPending hquota hips hcreate.1 hcreate.2 hlo hhi

/-- A plan that has not started yet. -/
private theorem planPending_ok {out : Entitlement} {c : PlanCall} {new : Entitlement} {debit : ℤ}
    (hquota : c.quotaBytes = 0) (hips : 0 < c.ipLimit) (hexp : c.expiresAt = 0)
    (h : planPending out c.ipLimit = .ok (new, debit)) : Accepted out c new debit := by
  simp only [planPending, except_bind_ok_iff, ensure_ok_iff] at h
  rcases h with ⟨_, hpending, hbill⟩
  exact .pending hquota hips hexp hpending (bill_ok hbill)

/-- A plan with an end. -/
private theorem planTimed_ok {out : Entitlement} {c : PlanCall} {new : Entitlement} {debit : ℤ}
    (hquota : c.quotaBytes = 0) (hips : 0 < c.ipLimit) (hexp : 0 < c.expiresAt)
    (h : planTimed out c = .ok (new, debit)) : Accepted out c new debit := by
  simp only [planTimed, except_bind_ok_iff, ensure_ok_iff] at h
  rcases h with ⟨_, hfuture, _, hrange, ⟨segments, added⟩, hcover, hbill⟩
  exact .timed hquota hips hexp hfuture hrange hcover (bill_ok hbill)

/-- Every accepted change took one of the four branches. -/
theorem planChange_ok {state : Option Entitlement} {c : PlanCall} {new : Entitlement} {debit : ℤ}
    (h : planChange state c = .ok (new, debit)) :
    Accepted (state.getD .empty) c new debit := by
  simp only [planChange, except_bind_ok_iff, integer_ok_iff, Value.int.injEq] at h
  rcases h with ⟨_, ⟨rfl, hquota, -⟩, _, ⟨rfl, hip, -⟩, _, ⟨rfl, hexp, -⟩, h⟩
  split at h <;> rename_i hvolume
  · rw [except_pure_ok_iff, Prod.mk.injEq] at h
    rcases h with ⟨rfl, rfl⟩
    exact .volume hvolume
  · have hq : c.quotaBytes = 0 := by omega
    simp only [except_bind_ok_iff, ensure_ok_iff] at h
    rcases h with ⟨_, hips, _, _, h⟩
    have hips' : 0 < c.ipLimit := by omega
    split at h <;> rename_i hcreate
    · exact planCreatePending_ok hq hips' hcreate h
    · split at h <;> rename_i hopen
      · exact planPending_ok hq hips' hopen h
      · exact planTimed_ok hq hips' (by omega) h

end Credit
end DarkXray
