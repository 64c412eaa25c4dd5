import Mathlib.Data.List.Sort
import DarkXray.Library.Runs
import DarkXray.Nodes.Lease

/-!
# Histories of one lease

One {lit}`HubLease` object under a clock that does not go back: challenges are
issued, acknowledgements of any content arrive in any order and any number of
times, trips are recorded, and the database may fail.

Main results:

- Theorem {lit}`LeaseHistory.Inv.step`: the invariant of the pending challenges and
  of the deadline.
- Theorem {lit}`lease_authority_bounded`: the lease never lasts longer than a minute
  from an issued and acknowledged challenge, and challenges are granted in the order
  in which they were issued, each at most once.
-/

namespace DarkXray
namespace Nodes

open Library Policy

/-! ## The system -/

/-- An accepted acknowledgement: the challenge, what was named, and what was in force. -/
structure Grant where
  challenge : Challenge
  ack : LeaseAck
  state : InForce
deriving DecidableEq, Repr

/-- The lease, the clock, the issued challenges and the grants, oldest first. -/
structure LeaseHistory where
  lease : HubLease
  now : ℕ
  issued : List Challenge
  granted : List Grant

/-- What can happen; every operation comes with the time at which it reads the clock. -/
inductive LeaseEvent where
  | challenge (token : String) (now : ℕ)
  | renew (body : LeaseBody) (state : InForce) (durable : Bool) (now : ℕ)
  | recordTrip (error : String) (durable : Bool) (now : ℕ)
  | wait (now : ℕ)
deriving DecidableEq, Repr

/-- The time of an event. -/
def LeaseEvent.now : LeaseEvent → ℕ
  | .challenge _ now => now
  | .renew _ _ _ now => now
  | .recordTrip _ _ now => now
  | .wait now => now

namespace LeaseHistory

/-- A new object. -/
def start (required : Bool) (trips : ℕ) (lastError : String) (now : ℕ) : LeaseHistory where
  lease := .init required trips lastError
  now := now
  issued := []
  granted := []

/-- A challenge is issued. -/
def issue (w : LeaseHistory) (token : String) (now : ℕ) : LeaseHistory :=
  { w with
    lease := w.lease.challenge now token
    issued := w.issued ++ [⟨token, now, w.lease.sequence + 1⟩] }

/-- A challenge is granted. -/
def grant (w : LeaseHistory) (c : Challenge) (ack : LeaseAck) (state : InForce) :
    LeaseHistory :=
  { w with
    lease := w.lease.grant c ack
    granted := w.granted ++ [⟨c, ack, state⟩] }

/-- The record of an accepted renewal. -/
def renewed (w : LeaseHistory) (body : LeaseBody) (state : InForce) (r : Renewal) :
    LeaseHistory :=
  match HubLease.parseAck body, r.granted with
  | .ok ack, some c =>
      { w with
        lease := r.lease
        granted := w.granted ++ [⟨c, ack, state⟩] }
  | _, _ => { w with lease := r.lease }

/-- The effect of an operation; one that raises changes nothing. -/
def apply (w : LeaseHistory) : LeaseEvent → LeaseHistory
  | .challenge token now => w.issue token now
  | .renew body state durable now =>
      match w.lease.renew now body state durable with
      | .ok r => w.renewed body state r
      | .error _ => w
  | .recordTrip error durable _ =>
      match w.lease.recordTrip error durable with
      | .ok lease => { w with lease := lease }
      | .error _ => w
  | .wait _ => w

/-- The state after an event, if the clock has not gone back. -/
def next (w : LeaseHistory) (event : LeaseEvent) : Option LeaseHistory :=
  if w.now ≤ event.now then some { w.apply event with now := event.now } else none

/-- One step of the system. -/
def Step (w : LeaseHistory) (event : LeaseEvent) (w' : LeaseHistory) : Prop :=
  w.next event = some w'

/-! ## The invariant -/

/-- What holds in every reachable state. -/
structure Inv (w : LeaseHistory) : Prop where
  /-- A pending challenge was issued. -/
  pending : ∀ token issued sequence, w.lease.pending.get? token = some (issued, sequence) →
    ⟨token, issued, sequence⟩ ∈ w.issued
  /-- At most 64 challenges are pending. -/
  length : w.lease.pending.rows.length ≤ 64
  /-- Challenges are numbered in the order in which they are issued. -/
  ordered : w.issued.Pairwise fun c d => c.sequence < d.sequence
  /-- So the times follow the numbers. -/
  issued : ∀ c ∈ w.issued, ∀ d ∈ w.issued, c.sequence < d.sequence → c.issued ≤ d.issued
  /-- They were issued in the past. -/
  past : ∀ c ∈ w.issued, c.sequence ≤ w.lease.sequence ∧ c.issued ≤ w.now
  /-- A granted challenge was issued, and named what was in force. -/
  granted : ∀ g ∈ w.granted, g.challenge ∈ w.issued ∧ g.ack.challenge = g.challenge.token ∧
    g.ack.Names g.state
  /-- Challenges are granted in their order. -/
  grants : w.granted.Pairwise fun g h => g.challenge.sequence < h.challenge.sequence
  /-- The last grant is the newest one, and sets the deadline. -/
  last : w.granted = [] ∧ w.lease.deadline = 0 ∨
    ∃ g ∈ w.granted, w.lease.deadline = g.challenge.issued + leaseSeconds ∧
      w.lease.lastSequence = g.challenge.sequence ∧
      ∀ h ∈ w.granted, h.challenge.sequence ≤ g.challenge.sequence

variable {w w' u : LeaseHistory} {required : Bool} {trips now : ℕ} {lastError : String}

/-- The invariant holds in the beginning. -/
theorem inv_start : (start required trips lastError now).Inv := by
  constructor <;> simp [start, HubLease.init, Table.empty, Table.get?]

/-- Time passes. -/
theorem Inv.wait (h : w.Inv) (hnow : w.now ≤ now) : ({ w with now := now }).Inv :=
  { h with past := fun c hc => (h.past c hc).imp_right fun hle => hle.trans hnow }

/-- A new challenge is the last one. -/
theorem Inv.issue (h : w.Inv) (token : String) (hnow : w.now ≤ now) :
    ({ w.issue token now with now := now }).Inv := by
  have hnew : ∀ c ∈ w.issued, c.sequence < w.lease.sequence + 1 ∧ c.issued ≤ now := fun c hc =>
    ⟨Nat.lt_succ_of_le (h.past c hc).1, (h.past c hc).2.trans hnow⟩
  refine ⟨?_, HubLease.length_challenge _ _ _, ?_, ?_, ?_, ?_, h.grants, h.last⟩
  · intro other issued sequence hpending
    rcases HubLease.get?_challenge hpending with ⟨rfl, hrow⟩ | hold
    · cases hrow
      exact List.mem_append_right _ (List.mem_singleton_self _)
    · exact List.mem_append_left _ (h.pending other issued sequence hold)
  · apply List.pairwise_append.mpr
    refine ⟨h.ordered, List.pairwise_singleton _ _, ?_⟩
    intro c hc d hd
    rw [List.mem_singleton.mp hd]
    exact (hnew c hc).1
  · intro c hc d hd hlt
    rcases List.mem_append.mp hd with hd | hd
    · rcases List.mem_append.mp hc with hc | hc
      · exact h.issued c hc d hd hlt
      · rw [List.mem_singleton.mp hc] at hlt
        exact absurd (hnew d hd).1 hlt.asymm
    · rw [List.mem_singleton.mp hd] at hlt ⊢
      rcases List.mem_append.mp hc with hc | hc
      · exact (hnew c hc).2
      · rw [List.mem_singleton.mp hc]
  · intro c hc
    rcases List.mem_append.mp hc with hc | hc
    · exact ⟨(hnew c hc).1.le, (hnew c hc).2⟩
    · rw [List.mem_singleton.mp hc]
      exact ⟨le_rfl, le_rfl⟩
  · intro g hg
    exact (h.granted g hg).imp_left fun hc => List.mem_append_left _ hc

/-- A grant moves the deadline to the granted challenge. -/
theorem Inv.grant (h : w.Inv) {c : Challenge} {ack : LeaseAck} {state : InForce}
    (hpending : w.lease.pending.get? c.token = some (c.issued, c.sequence))
    (htoken : c.token = ack.challenge) (hnames : ack.Names state)
    (hlt : w.lease.lastSequence < c.sequence) : (w.grant c ack state).Inv := by
  have hnewest : ∀ g ∈ w.granted, g.challenge.sequence < c.sequence := by
    intro g hg
    rcases h.last with ⟨hnone, -⟩ | ⟨last, -, -, hlast, hle⟩
    · rw [hnone] at hg
      cases hg
    · exact (hle g hg).trans_lt (hlast ▸ hlt)
  refine ⟨?_, ?_, h.ordered, h.issued, h.past, ?_, ?_, .inr ⟨⟨c, ack, state⟩, ?_, rfl, rfl, ?_⟩⟩
  · intro token issued sequence hrow
    simp only [LeaseHistory.grant, HubLease.grant, Table.get?_filterRows,
      Option.filter_eq_some_iff] at hrow
    exact h.pending token issued sequence hrow.1
  · exact (List.length_filter_le _ _).trans h.length
  · intro g hg
    rcases List.mem_append.mp hg with hg | hg
    · exact h.granted g hg
    · rw [List.mem_singleton.mp hg]
      exact ⟨h.pending _ _ _ hpending, htoken.symm, hnames⟩
  · apply List.pairwise_append.mpr
    refine ⟨h.grants, List.pairwise_singleton _ _, ?_⟩
    intro g hg d hd
    rw [List.mem_singleton.mp hd]
    exact hnewest g hg
  · exact List.mem_append_right _ (List.mem_singleton_self _)
  · intro g hg
    rcases List.mem_append.mp hg with hg | hg
    · exact (hnewest g hg).le
    · rw [List.mem_singleton.mp hg]

/-- What an operation can do. -/
theorem apply_cases (w : LeaseHistory) (event : LeaseEvent) :
    (∃ token now, event = .challenge token now ∧ w.apply event = w.issue token now) ∨
      (∃ c ack state, w.apply event = w.grant c ack state ∧
        w.lease.pending.get? c.token = some (c.issued, c.sequence) ∧ c.token = ack.challenge ∧
        ack.Names state ∧ w.lease.lastSequence < c.sequence ∧
        event.now ≤ c.issued + challengeSeconds) ∨
      (∃ lease, w.apply event = { w with lease := lease } ∧
        (w.lease.tripRecorded = true → lease.tripRecorded = true) ∧ lease = { w.lease with
          tripRecorded := lease.tripRecorded
          trips := lease.trips
          lastError := lease.lastError }) := by
  cases event with
  | challenge token now => exact .inl ⟨token, now, rfl, rfl⟩
  | renew body state durable now =>
      right
      simp only [apply]
      split
      · rename_i r hr
        obtain ⟨ack, hack, hnames, hcases⟩ := HubLease.renew_ok hr
        rcases hcases with ⟨hnone, hsame⟩ | ⟨c, hc, hlease, hpending, htoken, hlt, -, hrecent⟩
        · right
          simp only [renewed, hack, hnone, hsame]
          exact ⟨w.lease, rfl, id, rfl⟩
        · left
          simp only [renewed, hack, hc, hlease]
          exact ⟨c, ack, state, rfl, hpending, htoken, hnames, hlt, hrecent⟩
      · exact .inr ⟨w.lease, rfl, id, rfl⟩
  | recordTrip error durable now =>
      right; right
      simp only [apply]
      split
      · rename_i lease hlease
        obtain ⟨htrip, hsame⟩ := HubLease.recordTrip_ok hlease
        exact ⟨lease, rfl, fun _ => htrip, htrip ▸ hsame⟩
      · exact ⟨w.lease, rfl, id, rfl⟩
  | wait now => exact .inr (.inr ⟨w.lease, rfl, id, rfl⟩)

/-- Every step keeps the invariant. -/
theorem Inv.step {event : LeaseEvent} (h : w.Inv) (hstep : Step w event w') : w'.Inv := by
  simp only [Step, next] at hstep
  split at hstep <;> cases hstep
  rename_i hnow
  rcases apply_cases w event with ⟨token, now, rfl, heq⟩ |
    ⟨c, ack, state, heq, hpending, htoken, hnames, hlt, -⟩ | ⟨lease, heq, -, hlease⟩
  · rw [heq]
    exact h.issue token hnow
  · rw [heq]
    exact (h.grant hpending htoken hnames hlt).wait hnow
  · rw [heq, hlease]
    have hsame : ({ w with lease := { w.lease with
        tripRecorded := lease.tripRecorded
        trips := lease.trips
        lastError := lease.lastError } }).Inv :=
      ⟨h.pending, h.length, h.ordered, h.issued, h.past, h.granted, h.grants, h.last⟩
    exact hsame.wait hnow

/-- The deadline never decreases; it moves, and a trip is forgotten, only with a
grant. -/
structure Later (w w' : LeaseHistory) : Prop where
  deadline : w.lease.deadline ≤ w'.lease.deadline
  granted : ∃ l, w'.granted = w.granted ++ l ∧ (l = [] →
    w'.lease.deadline = w.lease.deadline ∧
      (w.lease.tripRecorded = true → w'.lease.tripRecorded = true))

/-- A state is later than itself. -/
theorem Later.refl (w : LeaseHistory) : w.Later w :=
  ⟨le_rfl, [], by simp, fun _ => ⟨rfl, id⟩⟩

/-- Being later is transitive. -/
theorem Later.trans (h : w.Later w') (h' : w'.Later u) : w.Later u := by
  obtain ⟨l, hl, hsame⟩ := h.granted
  obtain ⟨l', hl', hsame'⟩ := h'.granted
  refine ⟨h.deadline.trans h'.deadline, l ++ l', by rw [hl', hl, List.append_assoc], ?_⟩
  intro hnone
  rw [List.append_eq_nil_iff] at hnone
  obtain ⟨hdeadline, htrip⟩ := hsame hnone.1
  obtain ⟨hdeadline', htrip'⟩ := hsame' hnone.2
  exact ⟨hdeadline'.trans hdeadline, htrip' ∘ htrip⟩

/-- A grant is newer than the last one, so its challenge was issued later. -/
theorem Inv.deadline_le_grant (h : w.Inv) {c : Challenge} {ack : LeaseAck}
    (hpending : w.lease.pending.get? c.token = some (c.issued, c.sequence))
    (hlt : w.lease.lastSequence < c.sequence) :
    w.lease.deadline ≤ (w.lease.grant c ack).deadline := by
  rcases h.last with ⟨-, hzero⟩ | ⟨g, hg, hdeadline, hlast, -⟩
  · rw [hzero]
    exact Nat.zero_le _
  · rw [hdeadline]
    apply Nat.add_le_add_right
    exact h.issued _ (h.granted g hg).1 c (h.pending _ _ _ hpending) (hlast ▸ hlt)

/-- One step leads to a later state. -/
theorem Later.step {event : LeaseEvent} (h : w.Inv) (hstep : Step w event w') : w.Later w' := by
  simp only [Step, next] at hstep
  split at hstep <;> cases hstep
  rcases apply_cases w event with ⟨token, now, -, heq⟩ |
    ⟨c, ack, state, heq, hpending, -, -, hlt, -⟩ | ⟨lease, heq, htrip, hlease⟩
  · rw [heq]
    exact ⟨le_rfl, [], by simp [LeaseHistory.issue], fun _ => ⟨rfl, id⟩⟩
  · rw [heq]
    exact ⟨h.deadline_le_grant hpending hlt, _, rfl, by simp⟩
  · rw [heq, hlease]
    exact ⟨le_rfl, [], by simp, fun _ => ⟨rfl, htrip⟩⟩

/-- Right after a grant the lease is held, and no trip is recorded. -/
theorem granted_step {event : LeaseEvent} (hstep : Step w event w') :
    w'.granted = w.granted ∨
      w'.lease.allowed w'.now = true ∧ w'.lease.tripRecorded = false := by
  simp only [Step, next] at hstep
  split at hstep <;> cases hstep
  rcases apply_cases w event with ⟨token, now, -, heq⟩ |
    ⟨c, ack, state, heq, -, -, -, -, hrecent⟩ | ⟨lease, heq, -, -⟩
  · rw [heq]
    exact .inl rfl
  · right
    have hheld : event.now < c.issued + leaseSeconds := by
      simp only [leaseSeconds, challengeSeconds, second] at hrecent ⊢
      omega
    rw [heq]
    simp [LeaseHistory.grant, HubLease.grant, HubLease.allowed, hheld]
  · rw [heq]
    exact .inl rfl

/-- Challenges are granted in the order in which they were issued. -/
theorem Inv.granted_sublist (h : w.Inv) :
    (w.granted.map Grant.challenge).Sublist w.issued := by
  have hasymm : Std.Antisymm fun c d : Challenge => c.sequence < d.sequence :=
    ⟨fun _ _ hlt hgt => absurd hlt hgt.asymm⟩
  have hgrants : (w.granted.map Grant.challenge).Pairwise fun c d => c.sequence < d.sequence :=
    List.pairwise_map.mpr h.grants
  apply List.sublist_of_subperm_of_pairwise _ hgrants h.ordered
  apply List.subperm_of_subset (hgrants.imp fun hlt => ne_of_apply_ne _ hlt.ne)
  intro c hc
  obtain ⟨g, hg, rfl⟩ := List.mem_map.mp hc
  exact (h.granted g hg).1

/-- Whoever holds a required lease was granted an issued challenge less than a lease
ago. -/
theorem Inv.allowed (h : w.Inv) {t : ℕ} (ht : w.now ≤ t) (hrequired : w.lease.required = true)
    (hallowed : w.lease.allowed t = true) :
    ∃ g ∈ w.granted, g.challenge ∈ w.issued ∧ g.challenge.issued ≤ t ∧
      t < g.challenge.issued + leaseSeconds ∧ g.ack.challenge = g.challenge.token ∧
      g.ack.Names g.state := by
  have hlt : t < w.lease.deadline := by
    simpa [HubLease.allowed, hrequired] using hallowed
  rcases h.last with ⟨-, hzero⟩ | ⟨g, hg, hdeadline, -, -⟩
  · omega
  · obtain ⟨hissued, htoken, hnames⟩ := h.granted g hg
    have hpast := (h.past _ hissued).2
    exact ⟨g, hg, hissued, hpast.trans ht, hdeadline ▸ hlt, htoken, hnames⟩

end LeaseHistory

open LeaseHistory

/-- Over every history of one object: a required lease that is held comes from a
challenge issued less than a lease ago, whose acknowledgement named what was in
force; challenges are granted in their order, each once, and only a grant moves the
deadline, forwards; and at most 64 challenges are pending. -/
theorem lease_authority_bounded {required : Bool} {trips now : ℕ} {lastError : String}
    {es es' : List LeaseEvent} {w w' : LeaseHistory}
    (hrun : Run Step (start required trips lastError now) es w) (hlater : Run Step w es' w') :
    (∀ t, w.now ≤ t → w.lease.required = true → w.lease.allowed t = true →
        ∃ g ∈ w.granted, g.challenge ∈ w.issued ∧ g.challenge.issued ≤ t ∧
          t < g.challenge.issued + leaseSeconds ∧ g.ack.challenge = g.challenge.token ∧
          g.ack.Names g.state) ∧
      (∃ l, w'.granted = w.granted ++ l ∧ (l = [] → w'.lease.deadline = w.lease.deadline)) ∧
      (w'.granted.Pairwise fun g h => g.challenge.sequence < h.challenge.sequence) ∧
      w.lease.deadline ≤ w'.lease.deadline ∧
      (w'.issued.Pairwise fun c d => c.sequence < d.sequence) ∧
      (w'.granted.map Grant.challenge).Sublist w'.issued ∧
      w.lease.pending.rows.length ≤ 64 := by
  have hinv : w.Inv := hrun.invariant inv_start fun _ _ _ => Inv.step
  have hinv' : w'.Inv := hlater.invariant hinv fun _ _ _ => Inv.step
  have hthrough : w.Later w' :=
    hlater.related hinv (fun _ _ _ => Inv.step) Later.refl (fun _ _ _ => Later.trans)
      fun _ _ _ => Later.step
  obtain ⟨l, hl, hsame⟩ := hthrough.granted
  exact ⟨fun t => hinv.allowed, ⟨l, hl, fun hnone => (hsame hnone).1⟩, hinv'.grants,
    hthrough.deadline, hinv'.ordered, hinv'.granted_sublist, hinv.length⟩

/-- Two challenges, of which the newer one is granted and acknowledged twice; the
older one is refused. -/
def renewedTwice : List LeaseEvent :=
  let older := String.ofList (List.replicate 64 'a')
  let newer := String.ofList (List.replicate 64 'b')
  let state : InForce := ⟨7, "hash", "", 3⟩
  let body (token : String) : LeaseBody := .keys (.str token) (.int 7) (.str "hash") (.int 3)
  [.challenge older (1 * second), .challenge newer (2 * second),
    .renew (body newer) state true (5 * second), .renew (body newer) state true (6 * second),
    .renew (body older) state true (7 * second)]

theorem lease_authority_bounded_renewed : ∃ w : LeaseHistory, w.lease.required = true ∧
    w.lease.allowed (61 * second) = true ∧
    ∃ g ∈ w.granted, g.challenge ∈ w.issued ∧ g.challenge.issued ≤ 61 * second ∧
      61 * second < g.challenge.issued + leaseSeconds ∧ g.ack.challenge = g.challenge.token ∧
      g.ack.Names g.state := by
  have heval : (renewedTwice.foldlM next (start false 0 "" 0)).map
      (fun w => (w.lease.required, w.lease.allowed (61 * second), w.now)) =
        some (true, true, 7 * second) := by
    decide +kernel
  rcases Option.map_eq_some_iff.mp heval with ⟨w, hrun, hobserved⟩
  simp only [Prod.mk.injEq] at hobserved
  obtain ⟨hrequired, hallowed, hnow⟩ := hobserved
  have hpast : w.now ≤ 61 * second := by
    rw [hnow]
    decide
  exact ⟨w, hrequired, hallowed, (lease_authority_bounded (Run.of_eval hrun) Run.nil).1
    (61 * second) hpast hrequired hallowed⟩

end Nodes
end DarkXray
