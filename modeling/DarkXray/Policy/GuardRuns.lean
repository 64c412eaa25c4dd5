import DarkXray.Policy.Guard

/-!
# Sequences of observations

Main results:

- Theorem {lit}`GuardInv.after`: one observation keeps the number of leases within the limit.
- Theorem {lit}`Renewal.allowed`: an address that keeps coming back keeps its lease.
- Theorem {lit}`Lowering.after`: after the limit was lowered the leases of the first addresses
  stay and the others go.
- Theorem {lit}`address_leases`: leases respect the limit and are stable.
-/

namespace DarkXray
namespace Policy

open Library

/-! ## Calls -/

/-- The arguments of a call of {lit}`observe`, and how the firewall answers. -/
structure GuardCall where
  rawIp : String
  now : ℚ
  executor : Option (Except String Unit)

/-- The address that a call counts. -/
def GuardCall.address (p : GuardPolicy) (call : GuardCall) : Option String :=
  if 0 ≤ call.now ∧ call.now < 1000000000000000 then
    (p.normalizeIp call.rawIp).filter fun ip => p.exemption ip = none
  else none

/-- The answer to a call. -/
def GuardDb.answer (p : GuardPolicy) (email : String) (db : GuardDb) (call : GuardCall) :
    Except Failure Decision :=
  (observe p call.executor email call.rawIp call.now db).1

/-- The tables after a call. -/
def GuardDb.after (p : GuardPolicy) (email : String) (db : GuardDb) (call : GuardCall) : GuardDb :=
  (observe p call.executor email call.rawIp call.now db).2

/-- The tables after calls. -/
def GuardDb.afterAll (p : GuardPolicy) (email : String) (db : GuardDb) (calls : List GuardCall) :
    GuardDb :=
  calls.foldl (GuardDb.after p email) db

/-- The times of the calls do not decrease, and no address is banned. -/
structure Timely (calls : List GuardCall) : Prop where
  times : calls.Pairwise fun a b => a.now ≤ b.now
  unbanned : ∀ call ∈ calls, ∀ u, call.executor ≠ some (.ok u)

/-- An answer that allows the address. -/
def Allowed (answer : Except Failure Decision) : Prop :=
  ∃ n limit, answer = .ok (.allow n limit)

/-- An answer that reports a violation. -/
def Violates (answer : Except Failure Decision) : Prop :=
  answer = .ok .violation ∨ ∃ reason, answer = .ok (.enforcementFailed reason)

theorem Timely.prefix {before after : List GuardCall} (h : Timely (before ++ after)) :
    Timely before :=
  ⟨(List.pairwise_append.mp h.times).1,
    fun call hcall => h.unbanned call (List.mem_append_left _ hcall)⟩

theorem Timely.tail {call : GuardCall} {calls : List GuardCall} (h : Timely (call :: calls)) :
    Timely calls :=
  ⟨(List.pairwise_cons.mp h.times).2,
    fun call hcall => h.unbanned call (List.mem_cons_of_mem _ hcall)⟩

section Runs

variable {p : GuardPolicy} {c : ClientPolicy} {email : String} {db : GuardDb}

/-! ## One call -/

/-- A call that counts no address changes nothing; another one decides by the leases. -/
theorem after_cases (hclient : p.clients email = some c) (hdirect : p.direct = true)
    (hbans : db.Unbanned) {call : GuardCall} (hexecutor : ∀ u, call.executor ≠ some (.ok u)) :
    (call.address p = none ∧ db.after p email call = db ∧ ¬ Violates (db.answer p email call)) ∨
      ∃ ip granted, call.address p = some ip ∧
        granted = grants c.limitIp (db.leases email (call.now - p.windowSeconds)) ip ∧
        Sighted p email ip call.now granted db (db.after p email call) ∧
        (db.after p email call).Unbanned ∧
        (granted = true → Allowed (db.answer p email call)) := by
  have hnot : ∀ answer : Except Failure Decision,
      (∀ d, answer = .ok d → d ≠ .violation ∧ ∀ reason, d ≠ .enforcementFailed reason) →
        ¬ Violates answer := by
    rintro answer h (hviolation | ⟨reason, hfailed⟩)
    · exact (h _ hviolation).1 rfl
    · exact (h _ hfailed).2 reason rfl
  unfold GuardCall.address GuardDb.answer GuardDb.after observe demandPolicy
  by_cases htime : 0 ≤ call.now ∧ call.now < 1000000000000000
  · rw [if_pos htime, Tx.bind_apply, Tx.require, if_pos htime, Tx.pure_apply]
    dsimp only
    cases hip : p.normalizeIp call.rawIp with
    | none =>
        exact .inl ⟨rfl, rfl, hnot _ (by intro d h; cases h)⟩
    | some ip =>
        rw [Tx.bind_apply, Tx.demand, Tx.pure_apply, hclient]
        dsimp only
        cases hexempt : p.exemption ip with
        | some reason =>
            left
            refine ⟨by simp [hexempt], rfl, hnot _ ?_⟩
            intro d h
            cases h
            exact ⟨(by intro h; cases h), (by intro _ h; cases h)⟩
        | none =>
            right
            obtain ⟨n, hresult, hsighted, hsame⟩ :=
              judge_spec p c email ip call.now hbans
            refine ⟨ip, _, by simp [hexempt], rfl, ?_⟩
            dsimp only
            rw [if_pos hdirect, observeDirect, Tx.bind_apply]
            rcases hjudge : judge p c email ip call.now db with ⟨judgement, db'⟩
            rw [hjudge] at hresult hsighted hsame
            subst hresult
            generalize grants c.limitIp (db.leases email (call.now - p.windowSeconds)) ip = granted
              at hsighted ⊢
            have hunbanned : db'.Unbanned := by
              intro k b hb
              rw [hsame] at hb
              exact hbans k b hb
            cases granted with
            | true => exact ⟨hsighted, hunbanned, fun _ => ⟨n, c.limitIp, rfl⟩⟩
            | false =>
                dsimp only
                rw [if_neg (by decide)]
                dsimp only
                have hrefused : ∀ h : false = true, Allowed
                    ((enforce p c call.executor email ip call.now) db').1 := by
                  intro h
                  cases h
                cases hcase : call.executor with
                | none =>
                    rw [hcase] at hrefused
                    exact ⟨hsighted, hunbanned, hrefused⟩
                | some outcome =>
                    rw [hcase] at hrefused
                    cases outcome with
                    | ok u => exact absurd hcase (hexecutor u)
                    | error reason =>
                        refine ⟨⟨hsighted.self, hsighted.other⟩, hunbanned, hrefused⟩
  · rw [if_neg htime, Tx.bind_apply, Tx.require, if_neg htime]
    exact .inl ⟨rfl, rfl, hnot _ (by intro d h; cases h)⟩

theorem not_violates_of_allowed {answer : Except Failure Decision} (h : Allowed answer) :
    ¬ Violates answer := by
  obtain ⟨n, limit, rfl⟩ := h
  rintro (hviolation | ⟨reason, hfailed⟩)
  · cases hviolation
  · cases hfailed

/-! ## The limit -/

/-- An address gets a lease if it is among the first, or if there are too few. -/
theorem grants_iff {limit : ℕ} (hlimit : 0 < limit) {leases : List (ℚ ×ₗ String)} {ip : String} :
    grants limit leases ip = true ↔
      (∃ l ∈ leases.take limit, leaseIp l = ip) ∨ leases.length < limit := by
  have hne : limit ≠ 0 := by omega
  unfold grants activeIps
  simp only [hne, if_false, decide_false, Bool.false_or, Bool.or_eq_true, decide_eq_true_eq,
    List.length_map, List.length_take, List.mem_map]
  refine or_congr_right ?_
  omega

/-- After one observation the leases are older ones, or that of the address. -/
theorem Sighted.leases {ip : String} {now : ℚ} {granted : Bool} {db' : GuardDb} {since : ℚ}
    (h : Sighted p email ip now granted db db') {l : ℚ ×ₗ String}
    (hl : l ∈ db'.leases email since) :
    (leaseIp l ≠ ip ∧ l ∈ db.leases email since) ∨ (leaseIp l = ip ∧ granted = true ∧
      (ofLex l).1 = (seenRow (db.row email ip) now granted).firstSeen) := by
  obtain ⟨r, hrow, hgranted, hlast, hfirst⟩ := mem_leases_iff.mp hl
  by_cases hip : leaseIp l = ip
  · rw [hip, h.self, Option.some.injEq] at hrow
    subst hrow
    exact .inr ⟨hip, hgranted, hfirst.symm⟩
  · rw [h.other _ hip, Option.filter_eq_some_iff] at hrow
    exact .inl ⟨hip, mem_leases_iff.mpr ⟨r, hrow.1, hgranted, hlast, hfirst⟩⟩

/-- Two leases of one address at the same first sight are equal. -/
theorem lease_ext {l l' : ℚ ×ₗ String} (hip : leaseIp l = leaseIp l')
    (hfirst : (ofLex l).1 = (ofLex l').1) : l = l' :=
  ofLex.injective (Prod.ext hfirst hip)

/-- One observation leaves at most as many leases as the limit says. -/
theorem Sighted.length_leases {ip : String} {now : ℚ} {db' : GuardDb} {limit : ℕ}
    (hlimit : 0 < limit)
    (h : Sighted p email ip now
      (grants limit (db.leases email (now - p.windowSeconds)) ip) db db')
    (hle : (db.leases email (now - p.windowSeconds)).length ≤ limit) :
    (db'.leases email (now - p.windowSeconds)).length ≤ limit := by
  by_cases hgranted : grants limit (db.leases email (now - p.windowSeconds)) ip = true
  · rcases (grants_iff hlimit).mp hgranted with ⟨l, hl, hip⟩ | hroom
    · refine (length_le_of_subset nodup_leases fun l' hl' => ?_).trans hle
      rcases h.leases hl' with ⟨_, hold⟩ | ⟨hip', _, hfirst⟩
      · exact hold
      · have hmem := List.mem_of_mem_take hl
        obtain ⟨r, hrow, _, _, hfirst'⟩ := mem_leases_iff.mp hmem
        rw [hip] at hrow
        rw [hrow] at hfirst
        rw [lease_ext (hip'.trans hip.symm) (hfirst.trans hfirst')]
        exact hmem
    · have hsub : ∀ l ∈ db'.leases email (now - p.windowSeconds),
          l ∈ toLex ((seenRow (db.row email ip) now true).firstSeen, ip) ::
            db.leases email (now - p.windowSeconds) := by
        intro l hl
        rcases h.leases hl with ⟨_, hold⟩ | ⟨hip', _, hfirst⟩
        · exact List.mem_cons_of_mem _ hold
        · have hnew : l = toLex ((seenRow (db.row email ip) now true).firstSeen, ip) :=
            lease_ext hip' hfirst
          rw [hnew]
          exact List.mem_cons_self
      have hlength := length_le_of_subset nodup_leases hsub
      rw [List.length_cons] at hlength
      omega
  · refine (length_le_of_subset nodup_leases fun l hl => ?_).trans hle
    rcases h.leases hl with ⟨_, hold⟩ | ⟨_, htrue, _⟩
    · exact hold
    · exact absurd htrue hgranted

/-- What holds after observations under a limit, at a time. -/
structure GuardInv (p : GuardPolicy) (email : String) (limit : ℕ) (time : ℚ) (db : GuardDb) :
    Prop where
  unbanned : db.Unbanned
  capped : (db.leases email (time - p.windowSeconds)).length ≤ limit

theorem GuardInv.later {limit : ℕ} {time time' : ℚ} (h : GuardInv p email limit time db)
    (hle : time ≤ time') : GuardInv p email limit time' db := by
  refine ⟨h.unbanned, ?_⟩
  have hsub : ∀ l ∈ db.leases email (time' - p.windowSeconds),
      l ∈ db.leases email (time - p.windowSeconds) :=
    leases_mono (sub_le_sub_right hle p.windowSeconds)
  exact (length_le_of_subset nodup_leases hsub).trans h.capped

/-- One observation keeps the number of leases within the limit. -/
theorem GuardInv.after (hclient : p.clients email = some c) (hdirect : p.direct = true)
    (hlimit : 0 < c.limitIp) {time : ℚ} (h : GuardInv p email c.limitIp time db)
    {call : GuardCall} (hexecutor : ∀ u, call.executor ≠ some (.ok u)) (htime : time ≤ call.now) :
    GuardInv p email c.limitIp call.now (db.after p email call) := by
  have hlater := h.later htime
  rcases after_cases hclient hdirect h.unbanned hexecutor with
    ⟨_, hsame, _⟩ | ⟨ip, granted, _, rfl, hsighted, hunbanned, _⟩
  · rw [hsame]
    exact hlater
  · exact ⟨hunbanned, hsighted.length_leases hlimit hlater.capped⟩

/-- Observations keep the number of leases within the limit. -/
theorem GuardInv.afterAll (hclient : p.clients email = some c) (hdirect : p.direct = true)
    (hlimit : 0 < c.limitIp) {calls : List GuardCall} :
    ∀ {db : GuardDb} {time : ℚ}, GuardInv p email c.limitIp time db → Timely calls →
      (∀ call ∈ calls, time ≤ call.now) → ∀ {time' : ℚ}, time ≤ time' →
        (∀ call ∈ calls, call.now ≤ time') →
          GuardInv p email c.limitIp time' (db.afterAll p email calls) := by
  induction calls with
  | nil =>
      intro db time h _ _ time' hle _
      exact h.later hle
  | cons call calls ih =>
      intro db time h htimely hfrom time' _ huntil
      have hnext := h.after hclient hdirect hlimit
        (htimely.unbanned call List.mem_cons_self) (hfrom call List.mem_cons_self)
      exact ih hnext htimely.tail (List.pairwise_cons.mp htimely.times).1
        (huntil call List.mem_cons_self) fun call' hcall' =>
          huntil call' (List.mem_cons_of_mem _ hcall')

/-! ## Addresses that come back -/

/-- An address with a granted observation of the window gets its lease again. -/
theorem grants_of_row {limit : ℕ} (hlimit : 0 < limit) {time : ℚ} (h : GuardInv p email limit time db)
    {ip : String} {r : Observation} (hrow : db.row email ip = some r) (hgranted : r.granted = true)
    (hlast : time - p.windowSeconds < r.lastSeen) :
    grants limit (db.leases email (time - p.windowSeconds)) ip = true := by
  refine (grants_iff hlimit).mpr (.inl ⟨toLex (r.firstSeen, ip), ?_, rfl⟩)
  rw [List.take_of_length_le h.capped]
  exact mem_leases_iff.mpr ⟨r, hrow, hgranted, hlast, rfl⟩

/-- A call about another address leaves a recent observation. -/
theorem row_after (hclient : p.clients email = some c) (hdirect : p.direct = true)
    (hbans : db.Unbanned) (hwindow : 0 ≤ p.windowSeconds) {call : GuardCall}
    (hexecutor : ∀ u, call.executor ≠ some (.ok u)) {ip : String}
    (haddress : call.address p ≠ some ip) {r : Observation} (hrow : db.row email ip = some r)
    (hlast : call.now - p.windowSeconds < r.lastSeen) :
    (db.after p email call).row email ip = some r := by
  rcases after_cases hclient hdirect hbans hexecutor with
    ⟨_, hsame, _⟩ | ⟨ip', granted, haddress', _, hsighted, _, _⟩
  · rw [hsame, hrow]
  · have hne : ip ≠ ip' := by
      rintro rfl
      exact haddress haddress'
    have hmemory := window_le_memory hwindow
    rw [hsighted.other ip hne, hrow, Option.filter_some, if_pos (decide_eq_true (by linarith))]

/-- An address is observed again before its lease ends, and so on. -/
def Renewed (p : GuardPolicy) (ip : String) : ℚ → List GuardCall → Prop
  | _, [] => True
  | last, call :: calls =>
      if call.address p = some ip then
        call.now - p.windowSeconds < last ∧ Renewed p ip call.now calls
      else Renewed p ip last calls

theorem Renewed.soon {ip : String} {calls : List GuardCall} {last : ℚ}
    (h : Renewed p ip last calls) (hagain : ∃ call ∈ calls, call.address p = some ip) :
    ∃ call ∈ calls, call.now - p.windowSeconds < last := by
  induction calls with
  | nil =>
      obtain ⟨_, hcall, _⟩ := hagain
      cases hcall
  | cons call calls ih =>
      rw [Renewed] at h
      by_cases hip : call.address p = some ip
      · rw [if_pos hip] at h
        exact ⟨call, List.mem_cons_self, h.1⟩
      · rw [if_neg hip] at h
        obtain ⟨call', hcall', haddress⟩ := hagain
        rcases List.mem_cons.mp hcall' with rfl | hrest
        · exact absurd haddress hip
        · obtain ⟨soon, hsoon, hlast⟩ := ih h ⟨call', hrest, haddress⟩
          exact ⟨soon, List.mem_cons_of_mem _ hsoon, hlast⟩

/-- An address that keeps coming back keeps its lease. -/
theorem Renewed.allowed (hclient : p.clients email = some c) (hdirect : p.direct = true)
    (hlimit : 0 < c.limitIp) (hwindow : 0 ≤ p.windowSeconds) {ip : String}
    {before after : List GuardCall} {call : GuardCall} (haddress : call.address p = some ip) :
    ∀ {db : GuardDb} {time : ℚ} {r : Observation}, GuardInv p email c.limitIp time db →
      db.row email ip = some r → r.granted = true → Timely (before ++ call :: after) →
        (∀ x ∈ before ++ call :: after, time ≤ x.now) →
          Renewed p ip r.lastSeen (before ++ call :: after) →
            Allowed ((db.afterAll p email before).answer p email call) := by
  induction before with
  | nil =>
      intro db time r hinv hrow hgranted htimely hfrom hrenewed
      have hlater := hinv.later (hfrom call List.mem_cons_self)
      rw [List.nil_append, Renewed, if_pos haddress] at hrenewed
      rcases after_cases hclient hdirect hinv.unbanned
        (htimely.unbanned call List.mem_cons_self) with
        ⟨hnone, _⟩ | ⟨ip', granted, hsome, rfl, _, _, hallowed⟩
      · rw [haddress] at hnone
        cases hnone
      · rw [haddress, Option.some.injEq] at hsome
        subst hsome
        exact hallowed (grants_of_row hlimit hlater hrow hgranted hrenewed.1)
  | cons x before ih =>
      intro db time r hinv hrow hgranted htimely hfrom hrenewed
      have hexecutor := htimely.unbanned x List.mem_cons_self
      have hx := hfrom x List.mem_cons_self
      have hnext := hinv.after hclient hdirect hlimit hexecutor hx
      have hlater := hinv.later hx
      have htimes := (List.pairwise_cons.mp htimely.times).1
      rw [List.cons_append, Renewed] at hrenewed
      by_cases hip : x.address p = some ip
      · rw [if_pos hip] at hrenewed
        rcases after_cases hclient hdirect hinv.unbanned hexecutor with
          ⟨hnone, _⟩ | ⟨ip', granted, hsome, hvalue, hsighted, _, _⟩
        · rw [hip] at hnone
          cases hnone
        · rw [hip, Option.some.injEq] at hsome
          subst hsome
          rw [grants_of_row hlimit hlater hrow hgranted hrenewed.1] at hvalue
          subst hvalue
          exact ih hnext hsighted.self rfl htimely.tail htimes hrenewed.2
      · rw [if_neg hip] at hrenewed
        obtain ⟨soon, hsoon, hlast⟩ :=
          hrenewed.soon ⟨call, List.mem_append_right _ List.mem_cons_self, haddress⟩
        have hrow' := row_after hclient hdirect hinv.unbanned hwindow hexecutor hip hrow
          (by linarith [htimes soon hsoon])
        exact ih hnext hrow' hgranted htimely.tail htimes hrenewed

/-! ## A lower limit -/

/-- All observations are from before a time. -/
def Past (email : String) (time : ℚ) (db : GuardDb) : Prop :=
  ∀ ip r, db.row email ip = some r → r.lastSeen ≤ time

theorem Past.after (hclient : p.clients email = some c) (hdirect : p.direct = true) {time : ℚ}
    (hbans : db.Unbanned) (h : Past email time db) {call : GuardCall}
    (hexecutor : ∀ u, call.executor ≠ some (.ok u)) (htime : time ≤ call.now) :
    Past email call.now (db.after p email call) := by
  intro ip r hrow
  rcases after_cases hclient hdirect hbans hexecutor with
    ⟨_, hsame, _⟩ | ⟨ip', granted, _, _, hsighted, _, _⟩
  · rw [hsame] at hrow
    exact (h ip r hrow).trans htime
  · by_cases hip : ip = ip'
    · subst hip
      rw [hsighted.self, Option.some.injEq] at hrow
      rw [← hrow]
      exact le_refl _
    · rw [hsighted.other ip hip, Option.filter_eq_some_iff] at hrow
      exact (h ip r hrow.1).trans htime

/-- No call is about the address of a lease. -/
def Unseen (p : GuardPolicy) (calls : List GuardCall) (l : ℚ ×ₗ String) : Prop :=
  ∀ x ∈ calls, x.address p ≠ some (leaseIp l)

/-- Every lease is observed once more before it ends, and with the last call for the first
time all of them have been. -/
structure SeenAgain (p : GuardPolicy) (email : String) (db : GuardDb) (leases : List (ℚ ×ₗ String))
    (calls : List GuardCall) : Prop where
  all : ∀ l ∈ leases, ∃ before call after, calls = before ++ call :: after ∧
    call.address p = some (leaseIp l) ∧ Unseen p before l ∧
      ∀ r, db.row email (leaseIp l) = some r → call.now - p.windowSeconds < r.lastSeen
  moment : ∀ before last, calls = before ++ [last] →
    ∃ l ∈ leases, last.address p = some (leaseIp l) ∧ Unseen p before l

/-- While the leases are observed: the first ones stay, and the others go when they are seen. -/
structure Lowering (p : GuardPolicy) (email : String) (limit : ℕ) (start : GuardDb) (time : ℚ)
    (leases : List (ℚ ×ₗ String)) (calls : List GuardCall) (now : ℚ) (db : GuardDb) : Prop where
  unbanned : db.Unbanned
  kept : ∀ l ∈ leases, l ∈ leases.take limit ∨ Unseen p calls l →
    ∃ r, db.row email (leaseIp l) = some r ∧ r.granted = true ∧ r.firstSeen = (ofLex l).1 ∧
      (time ≤ r.lastSeen ∨ (Unseen p calls l ∧ start.row email (leaseIp l) = some r))
  gone : ∀ l ∈ leases, l ∉ leases.take limit → ¬ Unseen p calls l →
    ∀ r, db.row email (leaseIp l) = some r → r.granted = false
  few : leases.length ≤ limit → GuardInv p email limit now db
  many : limit < leases.length → ∀ l ∈ db.leases email (time - p.windowSeconds), l ∈ leases

theorem unseen_append {calls : List GuardCall} {x : GuardCall} {l : ℚ ×ₗ String} :
    Unseen p (calls ++ [x]) l ↔ Unseen p calls l ∧ x.address p ≠ some (leaseIp l) := by
  unfold Unseen
  rw [List.forall_mem_append]
  simp

section Lower

variable {start : GuardDb} {time now : ℚ} {leases : List (ℚ ×ₗ String)} {calls : List GuardCall}

/-- Where there are more leases than the limit says, the first ones get them and nobody else. -/
theorem grants_iff_first {limit : ℕ} (hlimit : 0 < limit) {current : List (ℚ ×ₗ String)}
    (hsorted : leases.Pairwise (· < ·)) (hcurrent : current.Pairwise (· < ·))
    (hmany : limit < leases.length) (hsub : ∀ l ∈ current, l ∈ leases)
    (hfirst : ∀ l ∈ leases.take limit, l ∈ current) (ip : String) :
    grants limit current ip = true ↔ ∃ l ∈ leases.take limit, leaseIp l = ip := by
  have hlength : (leases.take limit).length = limit := by
    rw [List.length_take]
    omega
  have hnodup : (leases.take limit).Nodup :=
    (List.take_sublist limit leases).nodup (hsorted.imp ne_of_lt)
  have hroom : ¬ current.length < limit := by
    have := length_le_of_subset hnodup hfirst
    omega
  rw [grants_iff hlimit, or_iff_left hroom]
  constructor
  · rintro ⟨l, hl, hip⟩
    have hmem := hsub l (List.mem_of_mem_take hl)
    refine ⟨l, ?_, hip⟩
    by_contra hnot
    have hrank := le_countP_of_not_mem_take hsorted hmem hnot
    have hgrow := countP_le_of_subset hnodup hfirst fun y => decide (y < l)
    have := ((mem_take_iff hcurrent).mp hl).2
    omega
  · rintro ⟨l, hl, hip⟩
    refine ⟨l, ?_, hip⟩
    have hrank := ((mem_take_iff hsorted).mp hl).2
    have hgrow := countP_le_of_subset (hcurrent.imp ne_of_lt) hsub fun y => decide (y < l)
    exact (mem_take_iff hcurrent).mpr ⟨hfirst l hl, by omega⟩

/-- A lease that has to stay is still one. -/
theorem Lowering.current {limit : ℕ} {x : GuardCall}
    (h : Lowering p email limit start time leases calls now db)
    (hnow : x.now - p.windowSeconds < time)
    (hunseen : ∀ l ∈ leases, Unseen p calls l → ∀ r, start.row email (leaseIp l) = some r →
      x.now - p.windowSeconds < r.lastSeen) {l : ℚ ×ₗ String} (hl : l ∈ leases)
    (hstays : l ∈ leases.take limit ∨ Unseen p calls l) :
    ∃ r, db.row email (leaseIp l) = some r ∧ r.granted = true ∧ r.firstSeen = (ofLex l).1 ∧
      x.now - p.windowSeconds < r.lastSeen := by
  obtain ⟨r, hrow, hgranted, hfirst, hold | ⟨hcalls, hstart⟩⟩ := h.kept l hl hstays
  · exact ⟨r, hrow, hgranted, hfirst, by linarith⟩
  · exact ⟨r, hrow, hgranted, hfirst, hunseen l hl hcalls r hstart⟩

/-- Who gets a lease while the leases are observed. -/
theorem Lowering.grants {limit : ℕ} (hlimit : 0 < limit) {x : GuardCall}
    (hsorted : leases.Pairwise (· < ·))
    (h : Lowering p email limit start time leases calls now db) (hlast : now ≤ x.now)
    (htime : time ≤ x.now) (hnow : x.now - p.windowSeconds < time)
    (hunseen : ∀ l ∈ leases, Unseen p calls l → ∀ r, start.row email (leaseIp l) = some r →
      x.now - p.windowSeconds < r.lastSeen) :
    (∀ l ∈ leases.take limit,
      grants limit (db.leases email (x.now - p.windowSeconds)) (leaseIp l) = true) ∧
    (limit < leases.length → ∀ ip,
      grants limit (db.leases email (x.now - p.windowSeconds)) ip = true →
        ∃ l ∈ leases.take limit, leaseIp l = ip) := by
  by_cases hmany : limit < leases.length
  · have hsub : ∀ l ∈ db.leases email (x.now - p.windowSeconds), l ∈ leases := fun l hl =>
      h.many hmany l (leases_mono (sub_le_sub_right htime p.windowSeconds) l hl)
    have hfirst : ∀ l ∈ leases.take limit, l ∈ db.leases email (x.now - p.windowSeconds) := by
      intro l hl
      obtain ⟨r, hrow, hgranted, hseen, hrecent⟩ :=
        h.current hnow hunseen (List.mem_of_mem_take hl) (.inl hl)
      exact mem_leases_iff.mpr ⟨r, hrow, hgranted, hrecent, hseen⟩
    have hiff := grants_iff_first hlimit hsorted pairwise_leases hmany hsub hfirst
    exact ⟨fun l hl => (hiff _).mpr ⟨l, hl, rfl⟩, fun _ ip hip => (hiff ip).mp hip⟩
  · refine ⟨fun l hl => ?_, fun h => absurd h hmany⟩
    obtain ⟨r, hrow, hgranted, _, hrecent⟩ :=
      h.current hnow hunseen (List.mem_of_mem_take hl) (.inl hl)
    exact grants_of_row hlimit ((h.few (not_lt.mp hmany)).later hlast) hrow hgranted hrecent

/-- One more observation: the first leases stay, and another one goes when it is seen. -/
theorem Lowering.after (hclient : p.clients email = some c) (hdirect : p.direct = true)
    (hlimit : 0 < c.limitIp) (hwindow : 0 ≤ p.windowSeconds) {x : GuardCall}
    (hsorted : leases.Pairwise (· < ·)) (hips : (leases.map leaseIp).Nodup)
    (h : Lowering p email c.limitIp start time leases calls now db)
    (hexecutor : ∀ u, x.executor ≠ some (.ok u)) (hlast : now ≤ x.now) (htime : time ≤ x.now)
    (hnow : x.now - p.windowSeconds < time)
    (hunseen : ∀ l ∈ leases, Unseen p calls l → ∀ r, start.row email (leaseIp l) = some r →
      x.now - p.windowSeconds < r.lastSeen) :
    Lowering p email c.limitIp start time leases (calls ++ [x]) x.now (db.after p email x) := by
  have hfew : leases.length ≤ c.limitIp → GuardInv p email c.limitIp x.now (db.after p email x) :=
    fun hle => (h.few hle).after hclient hdirect hlimit hexecutor hlast
  rcases after_cases hclient hdirect h.unbanned hexecutor with
    ⟨hnone, hsame, _⟩ | ⟨ip, granted, haddress, hvalue, hsighted, hunbanned, _⟩
  · have hcalls : ∀ l, Unseen p (calls ++ [x]) l ↔ Unseen p calls l := by
      intro l
      rw [unseen_append, hnone]
      simp
    rw [hsame] at hfew ⊢
    refine ⟨h.unbanned, ?_, ?_, hfew, h.many⟩
    · simp only [hcalls]
      exact h.kept
    · simp only [hcalls]
      exact h.gone
  · obtain ⟨hstay, hgo⟩ := h.grants hlimit hsorted hlast htime hnow hunseen
    -- a lease beyond the limit cannot get its lease again
    have hlost : ∀ l ∈ leases, l ∉ leases.take c.limitIp → leaseIp l = ip → granted = false := by
      intro l hl hnot hip
      have hmany : c.limitIp < leases.length := by
        by_contra hshort
        rw [List.take_of_length_le (not_lt.mp hshort)] at hnot
        exact hnot hl
      by_contra htrue
      rw [Bool.not_eq_false, hvalue] at htrue
      obtain ⟨l', hl', hip'⟩ := hgo hmany ip htrue
      have hsame := List.inj_on_of_nodup_map hips (List.mem_of_mem_take hl') hl (hip'.trans hip.symm)
      exact hnot (hsame ▸ hl')
    refine ⟨hunbanned, ?_, ?_, hfew, ?_⟩
    · intro l hl hstays
      have hstays' : l ∈ leases.take c.limitIp ∨ Unseen p calls l :=
        hstays.imp_right fun hcalls => (unseen_append.mp hcalls).1
      obtain ⟨r, hrow, hgranted, hfirst, hrecent⟩ := h.current hnow hunseen hl hstays'
      by_cases hip : leaseIp l = ip
      · have htake : l ∈ leases.take c.limitIp := by
          refine hstays.resolve_right fun hcalls => (unseen_append.mp hcalls).2 ?_
          rw [haddress, hip]
        have hvalue' := hvalue.trans (hip ▸ hstay l htake)
        refine ⟨_, hip ▸ hsighted.self, hvalue', ?_, .inl htime⟩
        rw [hrow]
        exact hfirst
      · have hmemory := window_le_memory hwindow
        have hrow' : (db.after p email x).row email (leaseIp l) = some r := by
          rw [hsighted.other _ hip, hrow, Option.filter_some,
            if_pos (decide_eq_true (by linarith))]
        refine ⟨r, hrow', hgranted, hfirst, ?_⟩
        obtain ⟨r', hrow'', _, _, hold | ⟨hcalls, hstart⟩⟩ := h.kept l hl hstays'
        · rw [hrow, Option.some.injEq] at hrow''
          exact .inl (hrow'' ▸ hold)
        · rw [hrow, Option.some.injEq] at hrow''
          refine .inr ⟨unseen_append.mpr ⟨hcalls, ?_⟩, hrow'' ▸ hstart⟩
          rw [haddress, Ne, Option.some.injEq]
          exact Ne.symm hip
    · intro l hl hnot hseen r hrow
      by_cases hip : leaseIp l = ip
      · rw [hip, hsighted.self, Option.some.injEq] at hrow
        rw [← hrow]
        exact hlost l hl hnot hip
      · rw [hsighted.other _ hip, Option.filter_eq_some_iff] at hrow
        refine h.gone l hl hnot (fun hcalls => hseen (unseen_append.mpr ⟨hcalls, ?_⟩)) r hrow.1
        rw [haddress, Ne, Option.some.injEq]
        exact Ne.symm hip
    · intro hmany l hl
      rcases hsighted.leases hl with ⟨_, hold⟩ | ⟨hip, htrue, hfirst⟩
      · exact h.many hmany l hold
      · obtain ⟨l', hl', hip'⟩ := hgo hmany ip (hvalue.symm.trans htrue)
        have hmem := List.mem_of_mem_take hl'
        obtain ⟨r, hrow, _, hseen, _⟩ := h.current hnow hunseen hmem (.inl hl')
        rw [← hip', hrow] at hfirst
        rw [lease_ext (hip.trans hip'.symm) (hfirst.trans hseen)]
        exact hmem

/-- All observations until every lease has been seen. -/
theorem Lowering.afterAll (hclient : p.clients email = some c) (hdirect : p.direct = true)
    (hlimit : 0 < c.limitIp) (hwindow : 0 ≤ p.windowSeconds)
    (hsorted : leases.Pairwise (· < ·)) (hips : (leases.map leaseIp).Nodup)
    (hrows : ∀ l ∈ leases, ∃ r, start.row email (leaseIp l) = some r)
    (hpast : Past email time start) {more : List GuardCall} (htimely : Timely more)
    (hfrom : ∀ x ∈ more, time ≤ x.now) (hagain : SeenAgain p email start leases more)
    {rest : List GuardCall} :
    ∀ {calls : List GuardCall} {now : ℚ} {db : GuardDb}, more = calls ++ rest →
      (∀ x ∈ rest, now ≤ x.now) →
        Lowering p email c.limitIp start time leases calls now db →
          ∃ now', Lowering p email c.limitIp start time leases more now'
            (db.afterAll p email rest) := by
  -- the last call sees a lease for the first time, so no call is a window after the change
  have hend : ∀ x ∈ more, x.now - p.windowSeconds < time := by
    intro x hx
    obtain ⟨before, last, rfl⟩ : ∃ before last, more = before ++ [last] :=
      ⟨_, _, (List.dropLast_append_getLast (List.ne_nil_of_mem hx)).symm⟩
    obtain ⟨l, hl, hlast, hbefore⟩ := hagain.moment before last rfl
    obtain ⟨before', call, after', hsplit, haddress, _, hrecent⟩ := hagain.all l hl
    have hcall : call = last := by
      have hmem : call ∈ before ++ [last] := hsplit ▸ List.mem_append_right _ List.mem_cons_self
      rcases List.mem_append.mp hmem with hin | hin
      · exact absurd haddress (hbefore call hin)
      · exact List.mem_singleton.mp hin
    have hle : x.now ≤ last.now := by
      rcases List.mem_append.mp hx with hin | hin
      · exact (List.pairwise_append.mp htimely.times).2.2 x hin last List.mem_cons_self
      · rw [List.mem_singleton.mp hin]
    obtain ⟨r, hrow⟩ := hrows l hl
    have hold := hpast _ r hrow
    have hnew := hcall ▸ hrecent r hrow
    linarith
  induction rest with
  | nil =>
      intro calls now db hsplit _ h
      rw [List.append_nil] at hsplit
      exact ⟨now, hsplit ▸ h⟩
  | cons x rest ih =>
      intro calls now db hsplit hnext h
      have hx : x ∈ more := hsplit ▸ List.mem_append_right _ List.mem_cons_self
      have hunseen : ∀ l ∈ leases, Unseen p calls l → ∀ r, start.row email (leaseIp l) = some r →
          x.now - p.windowSeconds < r.lastSeen := by
        intro l hl hcalls r hrow
        obtain ⟨before, call, after, hsplit', haddress, _, hrecent⟩ := hagain.all l hl
        have hmem : call ∈ calls ++ x :: rest := by
          rw [← hsplit, hsplit']
          exact List.mem_append_right _ List.mem_cons_self
        have hle : x.now ≤ call.now := by
          rcases List.mem_append.mp hmem with hin | hin
          · exact absurd haddress (hcalls call hin)
          · rcases List.mem_cons.mp hin with rfl | hin
            · exact le_refl _
            · have htimes := (List.pairwise_append.mp (hsplit ▸ htimely).times).2.1
              exact (List.pairwise_cons.mp htimes).1 call hin
        have := hrecent r hrow
        linarith
      have hstep := h.after hclient hdirect hlimit hwindow hsorted hips
        (htimely.unbanned x hx) (hnext x List.mem_cons_self) (hfrom x hx) (hend x hx) hunseen
      have htimes := (List.pairwise_append.mp (hsplit ▸ htimely).times).2.1
      exact ih (by rw [hsplit, List.append_assoc]; rfl) (List.pairwise_cons.mp htimes).1 hstep

end Lower

/-! ## All observations of a client -/

/-- The client has no observations. -/
def GuardDb.Unobserved (db : GuardDb) (email : String) : Prop :=
  ∀ ip, db.row email ip = none

/-- The tables after the first calls about a client. -/
def Reached (p : GuardPolicy) (email : String) (calls : List GuardCall) (db : GuardDb) : Prop :=
  ∃ start : GuardDb, start.Unobserved email ∧ start.Unbanned ∧ Timely calls ∧
    db = start.afterAll p email calls

/-- The policy with another limit for a client. -/
def GuardPolicy.withLimit (p : GuardPolicy) (email : String) (limit : ℕ) : GuardPolicy :=
  { p with clients := fun e =>
      if e = email then (p.clients e).map fun c => { c with limitIp := limit } else p.clients e }

theorem Past.afterAll (hclient : p.clients email = some c) (hdirect : p.direct = true)
    (hlimit : 0 < c.limitIp) {calls : List GuardCall} :
    ∀ {db : GuardDb} {time : ℚ}, GuardInv p email c.limitIp time db → Past email time db →
      Timely calls → (∀ call ∈ calls, time ≤ call.now) → ∀ {time' : ℚ}, time ≤ time' →
        (∀ call ∈ calls, call.now ≤ time') → Past email time' (db.afterAll p email calls) := by
  induction calls with
  | nil =>
      intro db time _ h _ _ time' hle _ ip r hrow
      exact (h ip r hrow).trans hle
  | cons call calls ih =>
      intro db time hinv h htimely hfrom time' _ huntil
      have hexecutor := htimely.unbanned call List.mem_cons_self
      have hnow := hfrom call List.mem_cons_self
      exact ih (hinv.after hclient hdirect hlimit hexecutor hnow)
        (h.after hclient hdirect hinv.unbanned hexecutor hnow) htimely.tail
        (List.pairwise_cons.mp htimely.times).1 (huntil call List.mem_cons_self)
        fun call' hcall' => huntil call' (List.mem_cons_of_mem _ hcall')

theorem leases_unobserved (h : db.Unobserved email) (since : ℚ) : db.leases email since = [] := by
  rw [List.eq_nil_iff_forall_not_mem]
  intro l hl
  obtain ⟨r, hrow, _⟩ := mem_leases_iff.mp hl
  rw [h] at hrow
  cases hrow

/-- What holds in every state that is reached, at any time from the last call on. -/
theorem reached_inv (hclient : p.clients email = some c) (hdirect : p.direct = true)
    (hlimit : 0 < c.limitIp) {calls : List GuardCall} (h : Reached p email calls db) {time : ℚ}
    (htime : ∀ call ∈ calls, call.now ≤ time) :
    GuardInv p email c.limitIp time db ∧ Past email time db := by
  obtain ⟨start, hunobserved, hunbanned, htimely, rfl⟩ := h
  have hearly : ∃ first : ℚ, (∀ call ∈ calls, first ≤ call.now) ∧ first ≤ time := by
    cases calls with
    | nil => exact ⟨time, (by intro _ h; cases h), le_refl time⟩
    | cons call calls =>
        refine ⟨call.now, fun x hx => ?_, htime call List.mem_cons_self⟩
        rcases List.mem_cons.mp hx with rfl | hx
        · exact le_refl _
        · exact (List.pairwise_cons.mp htimely.times).1 x hx
  obtain ⟨first, hfrom, hle⟩ := hearly
  have hinv : GuardInv p email c.limitIp first start :=
    ⟨hunbanned, by rw [leases_unobserved hunobserved]; exact Nat.zero_le _⟩
  have hpast : Past email first start := by
    intro ip r hrow
    rw [hunobserved] at hrow
    cases hrow
  exact ⟨hinv.afterAll hclient hdirect hlimit htimely hfrom hle htime,
    hpast.afterAll hclient hdirect hlimit hinv htimely hfrom hle htime⟩

/-- At the change of a limit nothing has been observed again yet. -/
theorem lowering_start {limit : ℕ} {time : ℚ} {p' : GuardPolicy}
    (hwindow : p'.windowSeconds = p.windowSeconds) (hunbanned : db.Unbanned) :
    Lowering p' email limit db time (db.leases email (time - p.windowSeconds)) [] time db := by
  refine ⟨hunbanned, ?_, ?_, ?_, ?_⟩
  · intro l hl _
    obtain ⟨r, hrow, hgranted, _, hfirst⟩ := mem_leases_iff.mp hl
    exact ⟨r, hrow, hgranted, hfirst, .inr ⟨(by intro _ h; cases h), hrow⟩⟩
  · intro l _ _ hseen
    exact absurd (by intro _ h; cases h) hseen
  · intro hle
    exact ⟨hunbanned, hwindow ▸ hle⟩
  · intro _ l hl
    exact hwindow ▸ hl

section Reached

variable {calls : List GuardCall}

/-- After every call the leases of its window respect the limit. -/
theorem Reached.capped (hclient : p.clients email = some c) (hdirect : p.direct = true)
    (hlimit : 0 < c.limitIp) (h : Reached p email calls db) {call : GuardCall}
    (hlast : calls.getLast? = some call) :
    (db.leases email (call.now - p.windowSeconds)).length ≤ c.limitIp := by
  obtain ⟨_, _, _, htimely, _⟩ := id h
  have htime : ∀ x ∈ calls, x.now ≤ call.now := by
    intro x hx
    obtain ⟨before, rfl⟩ := List.getLast?_eq_some_iff.mp hlast
    rcases List.mem_append.mp hx with hx | hx
    · exact (List.pairwise_append.mp htimely.times).2.2 x hx call List.mem_cons_self
    · rw [List.mem_singleton.mp hx]
  exact (reached_inv hclient hdirect hlimit h htime).1.capped

/-- Calls in order leave an instant between the earlier ones and the later ones. -/
theorem Timely.instant {more : List GuardCall} (h : Timely (calls ++ more)) (hmore : more ≠ []) :
    ∃ time, (∀ x ∈ calls, x.now ≤ time) ∧ ∀ x ∈ more, time ≤ x.now := by
  obtain ⟨-, htimes, hcross⟩ := List.pairwise_append.mp h.times
  cases more with
  | nil => exact absurd rfl hmore
  | cons x rest =>
      refine ⟨x.now, fun y hy => hcross y hy x List.mem_cons_self, fun y hy => ?_⟩
      rcases List.mem_cons.mp hy with rfl | hy
      · exact le_refl _
      · exact (List.pairwise_cons.mp htimes).1 y hy

/-- A granted address that comes back in time is always allowed. -/
theorem Reached.stable (hclient : p.clients email = some c) (hdirect : p.direct = true)
    (hlimit : 0 < c.limitIp) (hwindow : 0 ≤ p.windowSeconds) (h : Reached p email calls db)
    {ip : String} {r : Observation} {before after : List GuardCall} {call : GuardCall}
    (hrow : db.row email ip = some r) (hgranted : r.granted = true)
    (htimely : Timely (calls ++ (before ++ call :: after)))
    (hrenewed : Renewed p ip r.lastSeen (before ++ call :: after))
    (haddress : call.address p = some ip) :
    Allowed ((db.afterAll p email before).answer p email call) := by
  have hmore : Timely (before ++ call :: after) :=
    ⟨(List.pairwise_append.mp htimely.times).2.1,
      fun x hx => htimely.unbanned x (List.mem_append_right _ hx)⟩
  obtain ⟨time, hbefore, hfrom⟩ := htimely.instant (by simp)
  have hinv := (reached_inv hclient hdirect hlimit h hbefore).1
  exact Renewed.allowed hclient hdirect hlimit hwindow haddress hinv hrow hgranted hmore hfrom
    hrenewed

/-- A violation is reported only while as many other addresses as the limit says hold leases of
the window. -/
theorem Reached.violated (hclient : p.clients email = some c) (hdirect : p.direct = true)
    (hlimit : 0 < c.limitIp) (h : Reached p email calls db) {call : GuardCall} {ip : String}
    (htimely : Timely (calls ++ [call])) (haddress : call.address p = some ip)
    (hviolates : Violates (db.answer p email call)) :
    ∃ others : List String, others.Nodup ∧ others.length = c.limitIp ∧ ip ∉ others ∧
      ∀ other ∈ others, ∃ r, db.row email other = some r ∧ r.granted = true ∧
        call.now - p.windowSeconds < r.lastSeen := by
  have htime : ∀ x ∈ calls, x.now ≤ call.now := fun x hx =>
    (List.pairwise_append.mp htimely.times).2.2 x hx call List.mem_cons_self
  have hinv := (reached_inv hclient hdirect hlimit h htime).1
  rcases after_cases hclient hdirect hinv.unbanned
    (htimely.unbanned call (List.mem_append_right _ List.mem_cons_self)) with
    ⟨hnone, _⟩ | ⟨ip', granted, hsome, hvalue, _, _, hallowed⟩
  · rw [haddress] at hnone
    cases hnone
  · rw [haddress, Option.some.injEq] at hsome
    subst hsome
    have hrefused : grants c.limitIp (db.leases email (call.now - p.windowSeconds)) ip ≠ true :=
      fun htrue => not_violates_of_allowed (hallowed (hvalue.trans htrue)) hviolates
    rw [Ne, grants_iff hlimit, not_or, not_lt] at hrefused
    -- the others are the first leases of the window
    refine ⟨((db.leases email (call.now - p.windowSeconds)).take c.limitIp).map leaseIp, ?_, ?_,
      ?_, ?_⟩
    · exact ((List.take_sublist _ _).map leaseIp).nodup nodup_leaseIps
    · rw [List.length_map, List.length_take]
      exact min_eq_left hrefused.2
    · intro hmem
      obtain ⟨l, hl, hip⟩ := List.mem_map.mp hmem
      exact hrefused.1 ⟨l, hl, hip⟩
    · intro other hother
      obtain ⟨l, hl, rfl⟩ := List.mem_map.mp hother
      obtain ⟨r, hrow, hgranted, hlast, _⟩ := mem_leases_iff.mp (List.mem_of_mem_take hl)
      exact ⟨r, hrow, hgranted, hlast⟩

/-- Under a lower limit, once every lease has been seen again, the first ones are granted and no
others. -/
theorem Reached.lowered (hclient : p.clients email = some c) (hdirect : p.direct = true)
    (hlimit : 0 < c.limitIp) (hwindow : 0 ≤ p.windowSeconds) (h : Reached p email calls db)
    {limit : ℕ} {time : ℚ} {more : List GuardCall} (hpositive : 0 < limit)
    (hbefore : ∀ call ∈ calls, call.now ≤ time) (hfrom : ∀ call ∈ more, time ≤ call.now)
    (htimely : Timely more)
    (hagain : SeenAgain (p.withLimit email limit) email db
      (db.leases email (time - p.windowSeconds)) more)
    {l : ℚ ×ₗ String} (hl : l ∈ db.leases email (time - p.windowSeconds)) :
    (∃ r, (db.afterAll (p.withLimit email limit) email more).row email (leaseIp l) = some r ∧
      r.granted = true) ↔ l ∈ (db.leases email (time - p.windowSeconds)).take limit := by
  obtain ⟨hinv, hpast⟩ := reached_inv hclient hdirect hlimit h hbefore
  have hclient' : (p.withLimit email limit).clients email = some { c with limitIp := limit } := by
    simp [GuardPolicy.withLimit, hclient]
  obtain ⟨now, hlowered⟩ := Lowering.afterAll hclient' hdirect hpositive hwindow pairwise_leases
    nodup_leaseIps (fun l hl => (mem_leases_iff.mp hl).imp fun r hr => hr.1) hpast htimely hfrom
    hagain (List.nil_append more).symm hfrom (lowering_start rfl hinv.unbanned)
  have hseen : ¬ Unseen (p.withLimit email limit) more l := by
    obtain ⟨before, call, after, hsplit, haddress, _⟩ := hagain.all l hl
    intro hunseen
    exact hunseen call (hsplit ▸ List.mem_append_right _ List.mem_cons_self) haddress
  constructor
  · rintro ⟨r, hrow, hgranted⟩
    by_contra hnot
    have hlost := hlowered.gone l hl hnot hseen r hrow
    rw [hgranted] at hlost
    cases hlost
  · intro htake
    obtain ⟨r, hrow, hgranted, _⟩ := hlowered.kept l hl (.inl htake)
    exact ⟨r, hrow, hgranted⟩

end Reached

/-- Leases respect the limit and are stable, and a lower limit leaves the first of them. -/
theorem address_leases (hclient : p.clients email = some c) (hdirect : p.direct = true)
    (hlimit : 0 < c.limitIp) (hwindow : 0 ≤ p.windowSeconds) {calls : List GuardCall}
    (h : Reached p email calls db) :
    (∀ call, calls.getLast? = some call →
      (db.leases email (call.now - p.windowSeconds)).length ≤ c.limitIp) ∧
    (∀ ip r before call after, db.row email ip = some r → r.granted = true →
      Timely (calls ++ (before ++ call :: after)) →
        Renewed p ip r.lastSeen (before ++ call :: after) → call.address p = some ip →
          Allowed ((db.afterAll p email before).answer p email call)) ∧
    (∀ call ip, Timely (calls ++ [call]) → call.address p = some ip →
      Violates (db.answer p email call) → ∃ others : List String, others.Nodup ∧
        others.length = c.limitIp ∧ ip ∉ others ∧ ∀ other ∈ others, ∃ r,
          db.row email other = some r ∧ r.granted = true ∧
            call.now - p.windowSeconds < r.lastSeen) ∧
    (∀ limit time more, 0 < limit → (∀ call ∈ calls, call.now ≤ time) →
      (∀ call ∈ more, time ≤ call.now) → Timely more →
        SeenAgain (p.withLimit email limit) email db (db.leases email (time - p.windowSeconds)) more →
          ∀ l ∈ db.leases email (time - p.windowSeconds),
            (∃ r, (db.afterAll (p.withLimit email limit) email more).row email (leaseIp l) = some r ∧
              r.granted = true) ↔
                l ∈ (db.leases email (time - p.windowSeconds)).take limit) := by
  refine ⟨fun call hlast => h.capped hclient hdirect hlimit hlast, ?_, ?_, ?_⟩
  · intro ip r before call after hrow hgranted htimely hrenewed haddress
    exact h.stable hclient hdirect hlimit hwindow hrow hgranted htimely hrenewed haddress
  · intro call ip htimely haddress hviolates
    exact h.violated hclient hdirect hlimit htimely haddress hviolates
  · intro limit time more hpositive hbefore hfrom htimely hagain l hl
    exact h.lowered hclient hdirect hlimit hwindow hpositive hbefore hfrom htimely hagain hl

end Runs

/-- A Node that sees one client, who may use two addresses. -/
def twoAddresses : GuardPolicy where
  normalizeIp := some
  exemption := fun _ => none
  direct := true
  windowSeconds := 120
  banSeconds := 600
  clients := fun _ => some ⟨"owner", 2, "jail"⟩

/-- Two addresses within a window. -/
def twoSeen : List GuardCall :=
  [⟨"203.0.113.7", 10, none⟩, ⟨"203.0.113.8", 20, none⟩]

/-- Both of them are seen again. -/
def twoSeenAgain : List GuardCall :=
  [⟨"203.0.113.7", 40, none⟩, ⟨"203.0.113.8", 50, none⟩]

/-- The tables after the first two calls. -/
def afterTwo : GuardDb :=
  GuardDb.afterAll twoAddresses "alice" ⟨Table.empty, Table.empty, []⟩ twoSeen

/-- Calls at increasing times are in order, as long as nobody bans. -/
theorem timely_of {calls : List GuardCall} (htimes : calls.Pairwise fun a b => a.now ≤ b.now)
    (hnone : ∀ call ∈ calls, call.executor = none) : Timely calls := by
  refine ⟨htimes, fun call hcall u hban => ?_⟩
  rw [hnone call hcall] at hban
  cases hban

/-- Both leases of the two addresses. -/
theorem leases_afterTwo :
    afterTwo.leases "alice" (30 - 120) =
      [toLex (10, "203.0.113.7"), toLex (20, "203.0.113.8")] := by
  decide +kernel

/-- The first of the two calls is not about the second address. -/
theorem unseen_second :
    Unseen (twoAddresses.withLimit "alice" 1) [⟨"203.0.113.7", 40, none⟩]
      (toLex (20, "203.0.113.8")) := by
  intro x hx
  rw [List.mem_singleton.mp hx]
  decide +kernel

/-- Under a lower limit both leases are seen again before they end, the second one with the last
call. -/
theorem seenAgain_two :
    SeenAgain (twoAddresses.withLimit "alice" 1) "alice" afterTwo
      [toLex (10, "203.0.113.7"), toLex (20, "203.0.113.8")] twoSeenAgain where
  all := by
    have hfirst : afterTwo.row "alice" "203.0.113.7" = some ⟨10, 10, true⟩ := by decide +kernel
    have hsecond : afterTwo.row "alice" "203.0.113.8" = some ⟨20, 20, true⟩ := by decide +kernel
    intro l hl
    rcases List.mem_pair.mp hl with rfl | rfl
    · refine ⟨[], ⟨"203.0.113.7", 40, none⟩, [⟨"203.0.113.8", 50, none⟩], rfl, by decide +kernel,
        (by intro x hx; cases hx), fun r hrow => ?_⟩
      rw [← Option.some.inj (hfirst.symm.trans hrow)]
      decide +kernel
    · refine ⟨[⟨"203.0.113.7", 40, none⟩], ⟨"203.0.113.8", 50, none⟩, [], rfl, by decide +kernel,
        unseen_second, fun r hrow => ?_⟩
      rw [← Option.some.inj (hsecond.symm.trans hrow)]
      decide +kernel
  moment := by
    intro before last hsplit
    have hsplit' : [⟨"203.0.113.7", 40, none⟩] ++ [⟨"203.0.113.8", 50, none⟩] =
      before ++ [last] := hsplit
    obtain ⟨rfl, hlast⟩ := List.append_inj' hsplit' rfl
    obtain rfl := List.singleton_inj.mp hlast
    exact ⟨toLex (20, "203.0.113.8"), by decide +kernel, by decide +kernel, unseen_second⟩

/-- Both addresses get a lease; the first keeps it when it comes back, a third address is a
violation, and under a limit of one only the first keeps its lease. -/
theorem address_leases_two :
    (afterTwo.leases "alice" (20 - 120)).length ≤ 2 ∧
      Allowed (afterTwo.answer twoAddresses "alice" ⟨"203.0.113.7", 40, none⟩) ∧
      (∃ others : List String, others.Nodup ∧ others.length = 2 ∧ "203.0.113.9" ∉ others ∧
        ∀ other ∈ others, ∃ r, afterTwo.row "alice" other = some r ∧ r.granted = true ∧
          30 - 120 < r.lastSeen) ∧
      ∀ l, l ∈ [toLex ((10 : ℚ), "203.0.113.7"), toLex (20, "203.0.113.8")] →
        ((∃ r, (afterTwo.afterAll (twoAddresses.withLimit "alice" 1) "alice" twoSeenAgain).row
            "alice" (leaseIp l) = some r ∧ r.granted = true) ↔ l = toLex (10, "203.0.113.7")) := by
  have hreached : Reached twoAddresses "alice" twoSeen afterTwo :=
    ⟨⟨Table.empty, Table.empty, []⟩, fun _ => rfl, (by intro k b hb; cases hb),
      timely_of (by decide +kernel) (by decide), rfl⟩
  obtain ⟨hcapped, hstable, hviolated, hlowered⟩ :=
    address_leases (p := twoAddresses) (c := ⟨"owner", 2, "jail"⟩) rfl rfl (by decide)
      (by decide +kernel) hreached
  refine ⟨hcapped ⟨"203.0.113.8", 20, none⟩ rfl, ?_, ?_, ?_⟩
  · exact hstable "203.0.113.7" ⟨10, 10, true⟩ [] ⟨"203.0.113.7", 40, none⟩ [] (by decide +kernel)
      rfl (timely_of (by decide +kernel) (by decide)) ⟨by decide +kernel, trivial⟩ (by decide +kernel)
  · exact hviolated ⟨"203.0.113.9", 30, none⟩ "203.0.113.9"
      (timely_of (by decide +kernel) (by decide)) (by decide +kernel) (.inl (by decide +kernel))
  · have hkept := hlowered 1 30 twoSeenAgain (by decide) (by decide +kernel) (by decide +kernel)
      (timely_of (by decide +kernel) (by decide))
    rw [show (30 - twoAddresses.windowSeconds) = 30 - 120 from rfl, leases_afterTwo] at hkept
    intro l hl
    rw [hkept seenAgain_two l hl, List.take_succ_cons, List.take_zero, List.mem_singleton]

end Policy
end DarkXray
