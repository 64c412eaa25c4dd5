import DarkXray.Policy.BanRestore

/-!
# Runs of bans and their replay

A ban that is on record stays in force through restarts of the broker and edits of the policy, as
long as each synchronization can restore the bans.

Main results:

- Theorem {lit}`bans_stay_enforced`: what holds in every run.
- Theorem {lit}`short_ban_stops_enforcement`: a ban with less than ten seconds left switches the
  guard off.
-/

namespace DarkXray
namespace Policy

open Library

variable {α : Type} {lib : IpLibrary α} {cfg : BrokerConfig} {jailFor : List ℤ → String}

/-! ## Observing -/

/-- When an observation that bans keeps the elements to their row: it is short, and what is in
force for the address has a lease. -/
structure Undelayed (lib : IpLibrary α) (s : GuardStore) (call : ObserveCall) : Prop where
  quick : call.env.ended ≤ call.now + 1
  steady : ∀ ip port, normalizeIp lib (.value (.str call.rawIp)) = .ok ip →
    s.firewall.elements.alive (element (ip, port)) call.env.now = true →
      s.firewall.leases.alive (ip, port) call.env.now = true

/-- The rows of {lit}`bans` with a new one. -/
def recordBan (k : String × String) (email : String) (expiresAt : ℚ)
    (bans : Table (String × String) BanRow) : Table (String × String) BanRow :=
  bans.upsert k ⟨email, expiresAt, "applied"⟩ fun _ => ⟨email, expiresAt, "applied"⟩

section Observe

variable {p : PanelPolicy} {call : ObserveCall} {s : GuardStore}

/-- A ban that the firewall refuses leaves the bans. -/
theorem wp_enforce_error {guard : GuardPolicy} {c : ClientPolicy} {email ip reason : String}
    {now : ℚ} {db : GuardDb} :
    (enforce guard c (some (.error reason)) email ip now).wp
      (fun answer db' => db'.bans = db.bans ∧ ∃ reason, answer = .enforcementFailed reason)
      (fun _ _ => False) db :=
  ⟨rfl, reason, rfl⟩

/-- What a ban of an observation writes. -/
theorem wp_enforce_ok {guard : GuardPolicy} {c : ClientPolicy} {email ip : String} {now : ℚ}
    {db : GuardDb} (u : Unit) :
    (enforce guard c (some (.ok u)) email ip now).wp
      (fun answer db' => answer = .banned (now + guard.banSeconds) ∧
        db' = { db with bans := recordBan (c.jail, ip) email (now + guard.banSeconds) db.bans })
      (fun _ _ => False) db :=
  ⟨rfl, rfl⟩

/-- Without verified addresses no ban is made. -/
theorem wp_observeIndirect {guard : GuardPolicy} {c : ClientPolicy} {email ip : String} {now : ℚ}
    {db : GuardDb} : (observeIndirect guard c email ip now).wp
      (fun answer db' => db'.bans = db.bans ∧ answer = .observeOnly) (fun _ _ => False) db := by
  unfold observeIndirect
  simp only [Tx.wp_bind, Tx.wp_read, Tx.wp_when, Tx.wp_write, Tx.wp_pure]
  exact ⟨fun _ => ⟨rfl, trivial⟩, fun _ => ⟨trivial, trivial⟩⟩

/-- An observation: it leaves the bans and the sets, or asks for a ban. -/
theorem wp_observeBanning {q : Except Failure Decision → GuardStore → Prop}
    (hkeep : ∀ answer db, db.bans = s.db.bans → q answer { s with db := db })
    (hrefused : ∀ db c ip, db.bans = s.db.bans →
      (p.guard jailFor lib).clients call.email = some c →
      normalizeIp lib (.value (.str call.rawIp)) = .ok ip →
      (∀ row, s.db.bans.get? (c.jail, ip) = some row → row.state = "applied" →
        row.expiresAt ≤ call.now) →
      (banFor jailFor lib cfg p call.env c.jail ip none).wp
        (fun _ t => q (.ok (.banned (call.now + p.banSeconds)))
          { t with db := { t.db with
            bans := recordBan (c.jail, ip) call.email (call.now + p.banSeconds) t.db.bans } })
        (fun _ t => ∀ reason db, db.bans = t.db.bans →
          q (.ok (.enforcementFailed reason)) { t with db := db })
        { s with db := db }) :
    (observeBanning jailFor lib cfg p call).wp (fun answer t => q (.ok answer) t)
      (fun e t => q (.error e) t) s := by
  have hself : ∀ answer, q answer s := fun answer => hkeep answer s.db rfl
  unfold observeBanning demandPolicy onDb
  simp only [Tx.wp_bind, Tx.wp_require, Tx.wp_demand]
  refine ⟨fun _ => ⟨fun ip hip => ?_, fun _ => hself _⟩, fun _ => hself _⟩
  have hraw : normalizeIp lib (.value (.str call.rawIp)) = .ok ip := by
    have hoption : (normalizeIp lib (.value (.str call.rawIp))).toOption = some ip := hip
    cases hnormal : normalizeIp lib (.value (.str call.rawIp)) with
    | error e =>
        rw [hnormal] at hoption
        cases hoption
    | ok ip' =>
        rw [hnormal] at hoption
        exact congrArg Except.ok (Option.some.inj hoption)
  split
  · exact hself _
  · exact hself _
  · rename_i c hclient _
    split
    · rw [Tx.wp_bind, Tx.wp_within]
      refine Tx.wp_mono wp_judge_bans ?_ fun e db hbans => hkeep (.error e) db hbans
      rintro judgement db ⟨hbans, hviolation⟩
      cases judgement with
      | banned expiresAt => exact hkeep _ db hbans
      | allowed n => exact hkeep _ db hbans
      | refused =>
          dsimp only
          rw [Tx.wp_bind, Tx.wp_attempt]
          refine Tx.wp_mono (hrefused db c ip hbans hclient hraw (hviolation rfl)) ?_ ?_
          · intro u t hq
            rw [Tx.wp_within]
            refine Tx.wp_mono (wp_enforce_ok u) ?_ fun _ _ h => h.elim
            rintro answer db' ⟨rfl, rfl⟩
            exact hq
          · intro e t hq
            rw [Tx.wp_within]
            refine Tx.wp_mono wp_enforce_error ?_ fun _ _ h => h.elim
            rintro answer db' ⟨hbans', reason, rfl⟩
            exact hq reason db' hbans'
    · rw [Tx.wp_within]
      refine Tx.wp_mono wp_observeIndirect ?_ fun _ _ h => h.elim
      rintro answer db ⟨hbans, rfl⟩
      exact hkeep _ db hbans

/-- The bans after one has been recorded. -/
theorem get?_recordBan (k k' : String × String) (email : String) (expiresAt : ℚ)
    (bans : Table (String × String) BanRow) :
    (recordBan k email expiresAt bans).get? k' =
      if k' = k then some ⟨email, expiresAt, "applied"⟩ else bans.get? k' := by
  unfold recordBan
  rw [Table.get?_upsert]
  by_cases hk : k' = k
  · rw [if_pos hk, if_pos hk]
    cases bans.get? k <;> rfl
  · rw [if_neg hk, if_neg hk]

/-- An observation that is not delayed keeps the invariant. -/
theorem BanInv.observe (hlib : Canonical lib) (hp : Approved cfg jailFor p)
    (hinv : BanInv lib cfg call.now s) (hundelayed : Undelayed lib s call) :
    BanInv lib cfg call.env.ended (observeBanning jailFor lib cfg p call s).2 := by
  have hlater : call.now ≤ call.env.ended :=
    (call.now_le.trans call.env.began_le_now).trans call.env.now_le_ended
  have hkeep : ∀ (_ : Except Failure Decision) (db : GuardDb), db.bans = s.db.bans →
      BanInv lib cfg call.env.ended { s with db := db } :=
    fun _ db hbans => (hinv.of_bans hbans).later hlater
  have hwp : (observeBanning jailFor lib cfg p call).wp
      (fun _ t => BanInv lib cfg call.env.ended t)
      (fun _ t => BanInv lib cfg call.env.ended t) s := by
    refine wp_observeBanning (q := fun _ t => BanInv lib cfg call.env.ended t) hkeep ?_
    intro db c ip hbans _ hraw hold
    have hip := hlib _ _ hraw
    unfold banFor
    rw [Tx.wp_within]
    refine Tx.wp_mono (wp_executorBan p none hip) ?_ ?_
    · rintro _ f ⟨ports, hjail, haddress, hrebans⟩
      have hban : (10 : ℚ) ≤ p.banSeconds := by exact_mod_cast p.ban_least
      have hmost : (p.banSeconds : ℚ) ≤ cfg.maxBanSeconds := by exact_mod_cast hp.seconds
      have hquick := hundelayed.quick
      have hrow : BanInv lib cfg call.now { s with db := { db with
          bans := recordBan (c.jail, ip) call.email (call.now + p.banSeconds) db.bans } } := by
        refine (hinv.of_bans hbans).upsert haddress (hbans ▸ hold) rfl ?_ ?_
        · dsimp only
          linarith
        · dsimp only
          linarith
      refine (hrow.rebans hrebans (fun port => hundelayed.steady ip port hraw)
        ((get?_recordBan (c.jail, ip) (c.jail, ip) _ _ _).trans (if_pos rfl)) ?_).later hlater
      dsimp only [Option.getD_none]
      linarith
    · intro e f hdrops reason db' hbans'
      have hdropped : BanInv lib cfg call.now { s with
          firewall := f, cause := blame s.firewall f c.jail s.cause } :=
        hinv.drops hdrops fun _ _ hx => blame_drops hdrops hx
      exact (hdropped.of_bans (hbans'.trans hbans)).later hlater
  exact Tx.state_of_wp hwp

end Observe

/-! ## Releasing -/

section Release

variable {s : GuardStore} {now later : ℚ} {ip : String}

/-- No row of an address is in force. -/
def Free (ip : String) (db : GuardDb) : Prop :=
  ∀ jail row, db.bans.get? (jail, ip) = some row → row.state ≠ "applied"

/-- The rows of an address are released, and nothing of it is in force. -/
theorem BanInv.release (h : BanInv lib cfg now s) (hle : now ≤ later)
    (hmax : 0 ≤ cfg.maxBanSeconds)
    (hgone : ∀ port ∈ cfg.allowedPorts,
      s.firewall.elements.alive (element (ip, port)) later = false)
    (observations : Table (String × String) Observation) :
    BanInv lib cfg later { s with db := { s.db with
      bans := s.db.bans.mapRows fun k row => if k.2 = ip then releaseBan later row else row
      observations := observations } } := by
  have hget : ∀ k row, (s.db.bans.mapRows fun k row =>
      if k.2 = ip then releaseBan later row else row).get? k = some row →
        ∃ old, s.db.bans.get? k = some old ∧
          row = if k.2 = ip then releaseBan later old else old := by
    intro k row hrow
    rw [Table.get?_mapRows, Option.map_eq_some_iff] at hrow
    obtain ⟨old, hold, rfl⟩ := hrow
    exact ⟨old, hold, rfl⟩
  have hmax' : (0 : ℚ) ≤ cfg.maxBanSeconds := by exact_mod_cast hmax
  have hlater := h.later hle
  refine ⟨h.watched, h.ready, h.runtimePorts, h.ports, ?_, ?_, ?_, ?_⟩
  · intro k row hrow
    obtain ⟨old, hold, -⟩ := hget k row hrow
    exact h.address k old hold
  · intro k row hrow
    obtain ⟨old, hold, rfl⟩ := hget k row hrow
    split
    · exact le_add_of_nonneg_right hmax'
    · exact hlater.most k old hold
  · intro k row hrow hstate
    obtain ⟨old, hold, rfl⟩ := hget k row hrow
    split at hstate
    · rename_i hk
      rw [if_pos hk]
      exact le_rfl
    · rename_i hk
      rw [if_neg hk]
      exact hlater.released k old hold hstate
  · intro el x hx hlt
    obtain ⟨jail, row, hcause, hrow, hend⟩ := hlater.outlives el x hx hlt
    refine ⟨jail, row, hcause, ?_, hend⟩
    have hother : el.2.1 ≠ ip := by
      rintro rfl
      have hplaced := h.watched.placed el x hx
      have hdead := hgone el.2.2 (h.ports el x hx)
      have halive : s.firewall.elements.alive el later = true := Table.alive_iff.mpr ⟨x, hx, hlt⟩
      rw [hplaced] at halive
      exact Bool.false_ne_true (hdead.symm.trans halive)
    rw [Table.get?_mapRows]
    dsimp only
    rw [hrow, Option.map_some, if_neg hother]

/-- After the release of its bans an address is free. -/
theorem free_release (db : GuardDb) (time : ℚ)
    (observations : Table (String × String) Observation) :
    Free ip { db with
      bans := db.bans.mapRows fun k row => if k.2 = ip then releaseBan time row else row
      observations := observations } := by
  intro jail row hrow
  rw [Table.get?_mapRows, Option.map_eq_some_iff] at hrow
  obtain ⟨old, -, rfl⟩ := hrow
  rw [if_pos rfl]
  show ("released" : String) ≠ "applied"
  decide

/-- A release keeps the invariant; if it returns, the address is free. -/
theorem wp_unbanIp {call : UnbanCall} (hlib : Canonical lib) (hmax : 0 ≤ cfg.maxBanSeconds)
    (hinv : BanInv lib cfg call.env.began s) :
    (unbanIp lib cfg call).wp
      (fun _ t => BanInv lib cfg call.now t ∧
        ∃ ip, normalizeIp lib (.value (.str call.rawIp)) = .ok ip ∧ Free ip t.db)
      (fun _ t => BanInv lib cfg call.now t) s := by
  have hnow : call.env.began ≤ call.now :=
    (call.env.began_le_now.trans call.env.now_le_ended).trans call.ended_le
  unfold unbanIp onFirewall onDb
  simp only [Tx.wp_bind, Tx.wp_ofExcept]
  refine ⟨fun ip hraw => ⟨fun ip' hip' => ?_, fun _ _ => hinv.later hnow⟩,
    fun _ _ => hinv.later hnow⟩
  have hip := hlib _ _ hraw
  rw [hip] at hip'
  obtain rfl := Except.ok.inj hip'
  rw [Tx.wp_within]
  refine Tx.wp_mono (wp_request_unban hip) ?_ ?_
  · rintro answer f ⟨hdrops, hgone⟩
    rw [Tx.wp_within, Tx.wp_write, Tx.wp_pure]
    have hdropped : BanInv lib cfg call.env.began { s with firewall := f } :=
      hinv.drops hdrops fun _ _ _ => rfl
    refine ⟨hdropped.release hnow hmax (fun port hport => ?_) _, ip, hraw, free_release _ _ _⟩
    exact Table.not_alive_mono (hgone port (hinv.runtimePorts.symm ▸ hport)) call.ended_le
  · intro e f hdrops
    have hdropped : BanInv lib cfg call.env.began { s with firewall := f } :=
      hinv.drops hdrops fun _ _ _ => rfl
    exact hdropped.later hnow

end Release

/-! ## Addresses that are free -/

/-- No element of an address is put into a set. -/
def Spares (ip : String) (s t : FirewallState) : Prop :=
  ∀ el x, el.2.1 = ip → t.elements.get? el = some x → s.elements.get? el = some x

/-- Rows are only released. -/
def Releases (db db' : GuardDb) : Prop :=
  ∀ k row', db'.bans.get? k = some row' →
    ∃ row, db.bans.get? k = some row ∧ (row'.state = "applied" → row.state = "applied")

section Sparing

variable {f f' f'' : FirewallState} {db db' db'' : GuardDb} {ip ip' : String}

/-- Changes that spare an address spare it together. -/
theorem Spares.trans (h : Spares ip f f') (h' : Spares ip f' f'') : Spares ip f f'' :=
  fun el x hip hx => h el x hip (h' el x hip hx)

/-- Dropping elements spares every address. -/
theorem Drops.spares (h : Drops f f') (ip : String) : Spares ip f f' :=
  fun el x _ hx => h.elements el x hx

/-- A ban spares other addresses. -/
theorem Rebans.spares {env : Environment} {ports : List ℤ} {seconds : ℤ}
    (h : Rebans cfg env f ip' ports seconds f') (hne : ip' ≠ ip) : Spares ip f f' := by
  obtain ⟨keys, hadds, -, -, rfl⟩ := h
  intro el x hip hx
  have hmem : el ∉ keys.map element := by
    intro hmap
    obtain ⟨k, hk, rfl⟩ := List.mem_map.mp hmap
    exact hne ((hadds.address k hk).symm.trans hip)
  exact (Table.get?_refreshAll_of_not_mem hmem).symm.trans hx

/-- No change releases nothing. -/
theorem Releases.refl (db : GuardDb) : Releases db db :=
  fun _ row hrow => ⟨row, hrow, id⟩

/-- Releases compose. -/
theorem Releases.trans (h : Releases db db') (h' : Releases db' db'') : Releases db db'' := by
  intro k row'' hrow
  obtain ⟨row', hrow', hback'⟩ := h' k row'' hrow
  obtain ⟨row, hrow, hback⟩ := h k row' hrow'
  exact ⟨row, hrow, fun happlied => hback (hback' happlied)⟩

/-- The same bans release nothing. -/
theorem Releases.of_bans (h : db'.bans = db.bans) : Releases db db' :=
  fun _ row hrow => ⟨row, h ▸ hrow, id⟩

/-- A free address stays free when bans are released. -/
theorem Releases.free (h : Releases db db') (hfree : Free ip db) : Free ip db' := by
  intro jail row' hrow happlied
  obtain ⟨row, hrow, hback⟩ := h _ row' hrow
  exact hfree jail row hrow (hback happlied)

/-- The release of one ban. -/
theorem releases_update (db : GuardDb) (k : String × String) (time : ℚ) :
    Releases db { db with bans := db.bans.update k (releaseBan time) } := by
  intro k' row' hrow
  rw [Table.get?_update] at hrow
  split at hrow
  · obtain ⟨row, hold, rfl⟩ := Option.map_eq_some_iff.mp hrow
    rename_i hk
    refine ⟨row, hold, fun happlied => ?_⟩
    have hnot : ("released" : String) ≠ "applied" := by decide
    exact (hnot happlied).elim
  · exact ⟨row', hrow, id⟩

/-- The addresses of the rows are canonical. -/
def Reads (lib : IpLibrary α) (db : GuardDb) : Prop :=
  ∀ k row, db.bans.get? k = some row → normalizeIp lib (.value (.str k.2)) = .ok k.2

/-- Released bans keep readable addresses. -/
theorem Releases.reads (h : Releases db db') (hreads : Reads lib db) : Reads lib db' := by
  intro k row' hrow
  obtain ⟨row, hrow, -⟩ := h k row' hrow
  exact hreads k row hrow

end Sparing

section FreeSync

variable {p : PanelPolicy} {call : SyncCall} {s : GuardStore} {ip : String}

/-- A status request drops elements at most. -/
theorem wp_request_status_drops {env : Reachable} {f : FirewallState} :
    (request lib cfg env statusMessage).wp (fun _ t => Drops f t) (fun _ t => Drops f t) f := by
  unfold request dispatch
  simp only [Tx.wp_bind, Tx.wp_require, Tx.wp_demand, Tx.wp_ofExcept, Option.some.injEq,
    forall_eq', operationOf_statusMessage, Except.ok.injEq, reduceCtorEq, IsEmpty.forall_iff,
    implies_true, and_true, not_true_eq_false, Tx.wp_pure]
  exact fun _ => wp_status

/-- The check of the executor drops elements at most. -/
theorem wp_executorCheck_drops {env : Reachable} {f : FirewallState} :
    (executorCheck jailFor lib cfg p env).wp (fun _ t => Drops f t) (fun _ t => Drops f t) f := by
  unfold executorCheck
  rw [Tx.wp_bind]
  refine Tx.wp_mono wp_request_status_drops ?_ fun _ _ h => h
  intro answer t hdrops
  cases answer with
  | status found =>
      simp only [Tx.wp_bind, Tx.wp_require]
      exact ⟨fun _ => ⟨fun _ => ⟨fun _ => hdrops, fun _ => hdrops⟩, fun _ => hdrops⟩,
        fun _ => hdrops⟩
  | cleared => exact hdrops
  | ports allowed guarded => exact hdrops
  | released n => exact hdrops
  | accepted => exact hdrops

/-- The replay of a ban of another address. -/
theorem wp_replayBan_spares {ban : Ban} (hne : ban.1.2 ≠ ip)
    (hip : normalizeIp lib (.value (.str ban.1.2)) = .ok ban.1.2) :
    (replayBan jailFor lib cfg p call ban).wp
      (fun _ t => Releases s.db t.db ∧ Spares ip s.firewall t.firewall)
      (fun _ t => Releases s.db t.db ∧ Spares ip s.firewall t.firewall) s := by
  unfold replayBan banFor
  rw [Tx.wp_handle, Tx.wp_bind, Tx.wp_within]
  refine Tx.wp_mono (wp_executorBan p (some (remainingSeconds call.now ban)) hip) ?_ ?_
  · rintro _ f ⟨ports, -, -, hrebans⟩
    exact ⟨Releases.refl _, hrebans.spares hne⟩
  · intro e f hdrops
    by_cases hunmanaged : unmanaged e = true
    · rw [if_pos hunmanaged, Option.elim_some]
      unfold onDb
      rw [Tx.wp_bind, Tx.wp_within, Tx.wp_write, Tx.wp_pure]
      exact ⟨releases_update _ _ _, hdrops.spares ip⟩
    · rw [if_neg hunmanaged, Option.elim_none]
      exact ⟨Releases.refl _, hdrops.spares ip⟩

/-- Replaying the bans of other addresses spares an address. -/
theorem wp_replayBans_spares (rows : List Ban) (s : GuardStore)
    (hrows : ∀ ban ∈ rows, ban.1.2 ≠ ip ∧
      normalizeIp lib (.value (.str ban.1.2)) = .ok ban.1.2) :
    (replayBans jailFor lib cfg p call rows).wp
      (fun _ t => Releases s.db t.db ∧ Spares ip s.firewall t.firewall)
      (fun _ t => Releases s.db t.db ∧ Spares ip s.firewall t.firewall) s := by
  induction rows generalizing s with
  | nil => exact ⟨Releases.refl _, fun _ _ _ hx => hx⟩
  | cons ban rest ih =>
      obtain ⟨hne, hip⟩ := hrows ban List.mem_cons_self
      unfold replayBans
      rw [Tx.wp_bind]
      refine Tx.wp_mono (wp_replayBan_spares hne hip) ?_ fun _ _ h => h
      rintro restored t ⟨hreleases, hspares⟩
      rw [Tx.wp_bind]
      refine Tx.wp_mono (ih t fun ban' hban' => hrows ban' (List.mem_cons_of_mem _ hban')) ?_ ?_
      · rintro n u ⟨hreleases', hspares'⟩
        exact ⟨hreleases.trans hreleases', hspares.trans hspares'⟩
      · rintro e u ⟨hreleases', hspares'⟩
        exact ⟨hreleases.trans hreleases', hspares.trans hspares'⟩

/-- A synchronization spares an address that is free, however it ends. -/
theorem restoreBans_spares (hfree : Free ip s.db) (hreads : Reads lib s.db) :
    Releases s.db (restoreBans jailFor lib cfg p call s).2.db ∧
      Spares ip s.firewall (restoreBans jailFor lib cfg p call s).2.firewall := by
  have hwp : (restoreBans jailFor lib cfg p call).wp
      (fun _ t => Releases s.db t.db ∧ Spares ip s.firewall t.firewall)
      (fun _ t => Releases s.db t.db ∧ Spares ip s.firewall t.firewall) s := by
    unfold restoreBans onFirewall
    simp only [Tx.wp_bind, Tx.wp_require, Tx.wp_within, Tx.wp_read, Tx.wp_when]
    refine ⟨fun _ => ?_, fun _ => ⟨Releases.refl _, fun _ _ _ hx => hx⟩⟩
    refine Tx.wp_mono wp_executorCheck_drops ?_ fun _ _ hdrops =>
      ⟨Releases.refl _, hdrops.spares ip⟩
    intro _ f hdrops
    have hrows : ∀ ban ∈ s.db.bans.rows.filter (activeBan call.now), ban.1.2 ≠ ip ∧
        normalizeIp lib (.value (.str ban.1.2)) = .ok ban.1.2 := by
      intro ban hban
      obtain ⟨hmem, hactive⟩ := List.mem_filter.mp hban
      have hrow := Table.get?_eq_some_iff.mpr hmem
      refine ⟨?_, hreads _ _ hrow⟩
      rintro rfl
      rw [activeBan, Bool.and_eq_true, decide_eq_true_eq] at hactive
      exact hfree _ _ hrow hactive.1
    have hspared := hdrops.spares ip
    refine Tx.wp_mono (wp_replayBans_spares _ _ hrows) ?_ ?_
    · rintro n t ⟨hreleases, hspares⟩
      refine ⟨fun _ => ?_, fun _ => ⟨hreleases, hspared.trans hspares⟩⟩
      refine Tx.wp_mono wp_request_status_drops ?_ ?_
      · intro _ f' hdrops'
        exact ⟨hreleases, (hspared.trans hspares).trans (hdrops'.spares ip)⟩
      · intro _ f' hdrops'
        exact ⟨hreleases, (hspared.trans hspares).trans (hdrops'.spares ip)⟩
    · rintro e t ⟨hreleases, hspares⟩
      exact ⟨hreleases, hspared.trans hspares⟩
  exact Tx.state_of_wp (P := fun t : GuardStore =>
    Releases s.db t.db ∧ Spares ip s.firewall t.firewall) hwp

end FreeSync

/-! ## Runs -/

/-- What happens to the panel and the broker. -/
inductive BanEvent where
  | observe (call : ObserveCall)
  | sync (call : SyncCall)
  | unban (call : UnbanCall)
  /-- The broker restarts. -/
  | restart (now : ℚ)
  /-- Limits, inbounds or the length of bans are edited. -/
  | edit (now : ℚ) (policy : PanelPolicy)

/-- The broker after {lit}`bootstrap`. -/
def bootstrapped (cfg : BrokerConfig) : FirewallState :=
  ⟨Table.empty, cfg.allowedPorts, true, Table.empty⟩

/-- What an event does; the clock never goes back. -/
inductive BanStep (lib : IpLibrary α) (cfg : BrokerConfig) (jailFor : List ℤ → String)
    (s : BanSystem) : BanEvent → BanSystem → Prop
  | observe {p : PanelPolicy} {call : ObserveCall} :
      s.executor = some p → s.clock ≤ call.now →
      BanStep lib cfg jailFor s (.observe call)
        { s with store := (observeBanning jailFor lib cfg p call s.store).2
                 clock := call.env.ended }
  | sync {call : SyncCall} :
      s.clock ≤ call.began →
      BanStep lib cfg jailFor s (.sync call) (syncIpGuard jailFor lib cfg s call)
  | unban {call : UnbanCall} :
      s.clock ≤ call.env.began →
      BanStep lib cfg jailFor s (.unban call)
        { s with store := (unbanIp lib cfg call s.store).2, clock := call.now }
  | restart {now : ℚ} :
      s.clock ≤ now →
      BanStep lib cfg jailFor s (.restart now)
        { s with store := { s.store with firewall := bootstrapped cfg }, clock := now }
  | edit {now : ℚ} {policy : PanelPolicy} :
      s.clock ≤ now → Approved cfg jailFor policy → policy.enforce = s.policy.enforce →
      BanStep lib cfg jailFor s (.edit now policy) { s with policy := policy, clock := now }

/-- The panel and the broker at their start. -/
structure BanStart (cfg : BrokerConfig) (jailFor : List ℤ → String) (s : BanSystem) : Prop where
  approved : Approved cfg jailFor s.policy
  executor : s.executor = none
  bans : s.store.db.bans = Table.empty
  firewall : s.store.firewall = bootstrapped cfg

/-- When bans stay enforced. -/
def Unhurried (lib : IpLibrary α) (jailFor : List ℤ → String) (s : BanSystem) :
    BanEvent → Prop
  | .observe call => Undelayed lib s.store call
  | .sync call => s.policy.enforce = true → Replayable jailFor s.policy s.store call
  | .unban _ => True
  | .restart _ => True
  | .edit _ _ => True

/-- No address is banned again by an observation. -/
def Unobserved (lib : IpLibrary α) (cfg : BrokerConfig) (jailFor : List ℤ → String) (ip : String)
    (s : BanSystem) : BanEvent → Prop
  | .observe call => normalizeIp lib (.value (.str call.rawIp)) = .ok ip → ∀ p expiresAt,
      s.executor = some p →
        (observeBanning jailFor lib cfg p call s.store).1 ≠ .ok (.banned expiresAt)
  | .sync _ => True
  | .unban _ => True
  | .restart _ => True
  | .edit _ _ => True

/-- What holds between the events. -/
structure SystemInv (lib : IpLibrary α) (cfg : BrokerConfig) (jailFor : List ℤ → String)
    (s : BanSystem) : Prop where
  store : BanInv lib cfg s.clock s.store
  policy : Approved cfg jailFor s.policy
  executor : ∀ p, s.executor = some p → Approved cfg jailFor p

/-- The invariant holds after the start. -/
theorem banInv_bootstrapped {value : Option Fields} {now : ℚ} {db : GuardDb}
    {cause : Element → Option String}
    (hcfg : BrokerConfig.fromDict lib value = .ok cfg)
    (haddress : ∀ k row, db.bans.get? k = some row →
      brokerIp lib cfg (.value (.str k.2)) = .ok k.2)
    (hmost : ∀ k row, db.bans.get? k = some row → row.expiresAt ≤ now + cfg.maxBanSeconds)
    (hreleased : ∀ k row, db.bans.get? k = some row → row.state ≠ "applied" →
      row.expiresAt ≤ now) :
    BanInv lib cfg now ⟨db, bootstrapped cfg, cause⟩ where
  watched := Booted.watched hcfg ⟨rfl, rfl, rfl⟩ (s := ⟨bootstrapped cfg, now⟩)
  ready := rfl
  runtimePorts := rfl
  ports := by
    intro el x hx
    cases hx
  address := haddress
  most := hmost
  released := hreleased
  outlives := by
    intro el x hx
    cases hx

section Runs

variable {s t : BanSystem} {e : BanEvent} {value : Option Fields}

/-- What a synchronization that restores every ban leaves. -/
theorem sync_applied {call : SyncCall} (hinv : SystemInv lib cfg jailFor s)
    (hclock : s.clock ≤ call.began) (henforce : s.policy.enforce = true)
    (hreplay : Replayable jailFor s.policy s.store call) :
    ∃ store, syncIpGuard jailFor lib cfg s call =
        { s with executor := some s.policy, state := .applied, store := store,
                 clock := call.ended } ∧
      store.db = s.store.db ∧ BanInv lib cfg call.ended store ∧
      ∀ ban ∈ s.store.db.bans.rows, activeBan call.now ban = true → ∀ ports,
        s.policy.jails jailFor ban.1.1 = some ports → ∀ port ∈ ports,
          store.firewall.elements.alive (element (ban.1.2, port)) call.ended = true := by
  have hwp := wp_restoreBans hinv.policy (hinv.store.later hclock) hreplay
  unfold syncIpGuard
  rw [if_pos henforce]
  rcases hrun : restoreBans jailFor lib cfg s.policy call s.store with ⟨e | u, store⟩
  · exact (Tx.wp_error hwp hrun).elim
  · have hdone := Tx.wp_ok hwp hrun
    exact ⟨store, rfl, hdone⟩

/-- A synchronization has an executor exactly when it is applied. -/
theorem executor_of_applied {call : SyncCall}
    (h : (syncIpGuard jailFor lib cfg s call).state = .applied) :
    (syncIpGuard jailFor lib cfg s call).executor = some s.policy := by
  revert h
  unfold syncIpGuard
  split
  · split
    · exact fun _ => rfl
    · intro h
      cases h
  · intro h
    cases h

/-- A synchronization that is not applied leaves no executor. -/
theorem executor_of_not_applied {call : SyncCall}
    (h : (syncIpGuard jailFor lib cfg s call).state ≠ .applied) :
    (syncIpGuard jailFor lib cfg s call).executor = none := by
  revert h
  unfold syncIpGuard
  split
  · split
    · exact fun h => (h rfl).elim
    · exact fun _ => rfl
  · exact fun _ => rfl

/-- What a synchronization without enforcement leaves. -/
theorem sync_observing {call : SyncCall} (henforce : ¬ s.policy.enforce = true) :
    syncIpGuard jailFor lib cfg s call =
      { s with executor := none, state := .observing, clock := call.ended } := by
  unfold syncIpGuard
  rw [if_neg henforce]

/-- A synchronization ends after its instant. -/
theorem SyncCall.now_le_ended (call : SyncCall) : call.now ≤ call.ended :=
  ((call.now_le_last.trans call.last.began_le_now).trans call.last.now_le_ended).trans
    call.last_le_ended

/-- A synchronization ends after it began. -/
theorem SyncCall.began_le_ended (call : SyncCall) : call.began ≤ call.ended :=
  (((call.began_le_check.trans call.check.began_le_now).trans call.check.now_le_ended).trans
    call.check_le_now).trans call.now_le_ended

/-- Every event that meets the condition keeps the invariant. -/
theorem SystemInv.step (hlib : Canonical lib) (hcfg : BrokerConfig.fromDict lib value = .ok cfg)
    (hinv : SystemInv lib cfg jailFor s) (hstep : BanStep lib cfg jailFor s e t)
    (hunhurried : Unhurried lib jailFor s e) : SystemInv lib cfg jailFor t := by
  cases hstep with
  | @observe p call hexecutor hclock =>
      exact ⟨(hinv.store.later hclock).observe hlib (hinv.executor p hexecutor) hunhurried,
        hinv.policy, hinv.executor⟩
  | @sync call hclock =>
      by_cases henforce : s.policy.enforce = true
      · obtain ⟨store, hsync, -, hstore, -⟩ := sync_applied hinv hclock henforce
          (hunhurried henforce)
        rw [hsync]
        refine ⟨hstore, hinv.policy, fun p hp => ?_⟩
        obtain rfl := Option.some.inj hp
        exact hinv.policy
      · rw [sync_observing henforce]
        refine ⟨hinv.store.later (hclock.trans call.began_le_ended), hinv.policy, fun p hp => ?_⟩
        cases hp
  | @unban call hclock =>
      have hmax : 0 ≤ cfg.maxBanSeconds := le_trans (by decide) (fromDict_ok hcfg).2.2.1
      have hwp := wp_unbanIp hlib hmax (hinv.store.later hclock)
      exact ⟨Tx.state_of_wp (Tx.wp_mono hwp (fun _ _ h => h.1) fun _ _ h => h), hinv.policy,
        hinv.executor⟩
  | @restart now hclock =>
      have hstore := hinv.store.later hclock
      exact ⟨banInv_bootstrapped hcfg hstore.address hstore.most hstore.released, hinv.policy,
        hinv.executor⟩
  | @edit now policy hclock hpolicy henforce =>
      exact ⟨hinv.store.later hclock, hpolicy, hinv.executor⟩

/-- The invariant holds at the start. -/
theorem BanStart.inv (hcfg : BrokerConfig.fromDict lib value = .ok cfg)
    (h : BanStart cfg jailFor s) : SystemInv lib cfg jailFor s := by
  have hnone : ∀ k row, s.store.db.bans.get? k ≠ some row := by
    intro k row hrow
    rw [h.bans, Table.get?_empty] at hrow
    cases hrow
  have hstore : BanInv lib cfg s.clock
      ⟨s.store.db, bootstrapped cfg, s.store.cause⟩ :=
    banInv_bootstrapped hcfg (fun k row hrow => (hnone k row hrow).elim)
      (fun k row hrow => (hnone k row hrow).elim) fun k row hrow => (hnone k row hrow).elim
  rw [← h.firewall] at hstore
  refine ⟨hstore, h.approved, fun p hp => ?_⟩
  rw [h.executor] at hp
  cases hp

/-- A release only releases rows. -/
theorem unbanIp_releases {call : UnbanCall} (store : GuardStore) :
    Releases store.db (unbanIp lib cfg call store).2.db := by
  refine Tx.state_of_wp (P := fun t : GuardStore => Releases store.db t.db) ?_
  unfold unbanIp onFirewall onDb
  simp only [Tx.wp_bind, Tx.wp_ofExcept, Tx.wp_within, Tx.wp_write, Tx.wp_pure]
  refine ⟨fun ip _ => ⟨fun ip' _ => Tx.wp_of_forall (fun answer f => ?_) fun _ _ => Releases.refl _,
    fun _ _ => Releases.refl _⟩, fun _ _ => Releases.refl _⟩
  intro k row' hrow
  rw [Table.get?_mapRows, Option.map_eq_some_iff] at hrow
  obtain ⟨row, hold, rfl⟩ := hrow
  refine ⟨row, hold, fun happlied => ?_⟩
  split at happlied
  · have hnot : ("released" : String) ≠ "applied" := by decide
    exact (hnot happlied).elim
  · exact happlied

/-- An observation that does not ban an address again leaves it free. -/
theorem observeBanning_free {p : PanelPolicy} {call : ObserveCall} {store : GuardStore}
    {ip : String} (hlib : Canonical lib) (hfree : Free ip store.db) (hreads : Reads lib store.db)
    (hquiet : normalizeIp lib (.value (.str call.rawIp)) = .ok ip → ∀ expiresAt,
      (observeBanning jailFor lib cfg p call store).1 ≠ .ok (.banned expiresAt)) :
    Free ip (observeBanning jailFor lib cfg p call store).2.db ∧
      Reads lib (observeBanning jailFor lib cfg p call store).2.db := by
  let q : Except Failure Decision → GuardStore → Prop := fun answer t =>
    (normalizeIp lib (.value (.str call.rawIp)) = .ok ip → ∀ expiresAt,
      answer ≠ .ok (.banned expiresAt)) → Free ip t.db ∧ Reads lib t.db
  have hkeep : ∀ answer db, db.bans = store.db.bans → q answer { store with db := db } :=
    fun _ db hbans _ => ⟨(Releases.of_bans hbans).free hfree, (Releases.of_bans hbans).reads hreads⟩
  refine Tx.outcome_of_wp (q := q) (wp_observeBanning hkeep ?_) hquiet
  intro db c ip' hbans _ hraw _
  have hip := hlib _ _ hraw
  unfold banFor
  rw [Tx.wp_within]
  refine Tx.wp_mono (wp_executorBan p none hip) ?_ ?_
  · intro _ f _ hanswer
    have hne : ip' ≠ ip := by
      rintro rfl
      exact hanswer hraw _ rfl
    refine ⟨?_, ?_⟩
    · intro jail row hrow
      rw [get?_recordBan, if_neg fun h => hne (Prod.mk.inj h).2.symm] at hrow
      exact hfree jail row (hbans ▸ hrow)
    · intro k row hrow
      rw [get?_recordBan] at hrow
      split at hrow
      · rename_i hk
        rw [hk]
        exact hip
      · exact hreads k row (hbans ▸ hrow)
  · intro e f _ reason db' hbans'
    exact hkeep (.ok (.enforcementFailed reason)) db' (hbans'.trans hbans)

/-- An address that is free stays free, and a synchronization does not ban it. -/
theorem free_step {ip : String} (hlib : Canonical lib) (hfree : Free ip s.store.db)
    (hreads : Reads lib s.store.db) (hstep : BanStep lib cfg jailFor s e t)
    (hunobserved : Unobserved lib cfg jailFor ip s e) :
    Free ip t.store.db ∧ Reads lib t.store.db ∧
      ∀ call, e = .sync call → Spares ip s.store.firewall t.store.firewall := by
  cases hstep with
  | @observe p call hexecutor hclock =>
      obtain ⟨hfree', hreads'⟩ := observeBanning_free hlib hfree hreads fun hraw expiresAt =>
        hunobserved hraw p expiresAt hexecutor
      exact ⟨hfree', hreads', fun _ h => (by cases h)⟩
  | @sync call hclock =>
      have hspares : Releases s.store.db
          (restoreBans jailFor lib cfg s.policy call s.store).2.db ∧
            Spares ip s.store.firewall
              (restoreBans jailFor lib cfg s.policy call s.store).2.firewall :=
        restoreBans_spares hfree hreads
      by_cases henforce : s.policy.enforce = true
      · unfold syncIpGuard
        rw [if_pos henforce]
        revert hspares
        rcases restoreBans jailFor lib cfg s.policy call s.store with ⟨_ | _, store⟩
        · intro hspares
          exact ⟨hspares.1.free hfree, hspares.1.reads hreads, fun _ _ => hspares.2⟩
        · intro hspares
          exact ⟨hspares.1.free hfree, hspares.1.reads hreads, fun _ _ => hspares.2⟩
      · rw [sync_observing henforce]
        exact ⟨hfree, hreads, fun _ _ _ _ _ hx => hx⟩
  | @unban call hclock =>
      have hreleases : Releases s.store.db (unbanIp lib cfg call s.store).2.db :=
        unbanIp_releases s.store
      exact ⟨hreleases.free hfree, hreleases.reads hreads, fun _ h => (by cases h)⟩
  | @restart now hclock => exact ⟨hfree, hreads, fun _ h => (by cases h)⟩
  | @edit now policy hclock hpolicy henforce => exact ⟨hfree, hreads, fun _ h => (by cases h)⟩

/-- An address that nobody observes stays free. -/
theorem free_run {ip : String} {es : List BanEvent} (hlib : Canonical lib)
    (hfree : Free ip s.store.db) (hreads : Reads lib s.store.db)
    (hrun : Run (Guarded (BanStep lib cfg jailFor) (Unobserved lib cfg jailFor ip)) s es t) :
    Free ip t.store.db ∧ Reads lib t.store.db := by
  induction hrun with
  | nil => exact ⟨hfree, hreads⟩
  | snoc _ hlast ih =>
      obtain ⟨hstep, hunobserved⟩ := hlast
      have hafter := free_step hlib ih.1 ih.2 hstep hunobserved
      exact ⟨hafter.1, hafter.2.1⟩

/-- The elements of the bans that are in force, and for whose group. -/
def Enforces (jailFor : List ℤ → String) (p : PanelPolicy) (t : BanSystem) : Prop :=
  ∀ jail ip row ports, t.store.db.bans.get? (jail, ip) = some row → row.state = "applied" →
    t.clock + 1 ≤ row.expiresAt → p.jails jailFor jail = some ports →
      ∀ port ∈ ports, t.store.firewall.elements.alive (element (ip, port)) t.clock = true

/-- Bans stay enforced: in every run of events that meet the condition, and in the step of the next
one.  A synchronization of a policy that enforces ends with an executor, and with the elements of
every ban; no element outlives the row that it was put in for by more than a second; and after a
release no synchronization bans the address before an observation does. -/
theorem bans_stay_enforced {start : BanSystem} {es : List BanEvent} (hlib : Canonical lib)
    (hcfg : BrokerConfig.fromDict lib value = .ok cfg) (hstart : BanStart cfg jailFor start)
    (hrun : Run (Guarded (BanStep lib cfg jailFor) (Unhurried lib jailFor)) start es s)
    (hstep : Guarded (BanStep lib cfg jailFor) (Unhurried lib jailFor) s e t) :
    (∀ call, e = .sync call → s.policy.enforce = true →
      t.state = .applied ∧ t.executor = some s.policy ∧ Enforces jailFor s.policy t) ∧
    (∀ el x, t.store.firewall.elements.get? el = some x → t.clock < x →
      ∃ jail row, t.store.cause el = some jail ∧
        t.store.db.bans.get? (jail, el.2.1) = some row ∧ x ≤ row.expiresAt + 1) ∧
    (∀ call answer, e = .unban call → (unbanIp lib cfg call s.store).1 = .ok answer →
      ∃ ip, normalizeIp lib (.value (.str call.rawIp)) = .ok ip ∧ ∀ fs u again v,
        Run (Guarded (BanStep lib cfg jailFor) (Unobserved lib cfg jailFor ip)) t fs u →
        BanStep lib cfg jailFor u (.sync again) v →
          Spares ip u.store.firewall v.store.firewall) := by
  have hinv : SystemInv lib cfg jailFor s := by
    apply hrun.invariant (hstart.inv hcfg)
    rintro a e b ha ⟨hstep, hunhurried⟩
    exact ha.step hlib hcfg hstep hunhurried
  obtain ⟨hstep, hunhurried⟩ := hstep
  have hinv' := hinv.step hlib hcfg hstep hunhurried
  refine ⟨?_, hinv'.store.outlives, ?_⟩
  · rintro call rfl henforce
    cases hstep with
    | sync hclock =>
        obtain ⟨store, hsync, hdb, -, hforce⟩ :=
          sync_applied hinv hclock henforce (hunhurried henforce)
        rw [hsync]
        refine ⟨rfl, rfl, ?_⟩
        intro jail ip row ports hrow hstate hlong hjail port hport
        rw [hdb] at hrow
        refine hforce ((jail, ip), row) (Table.get?_eq_some_iff.mp hrow) ?_ ports hjail port hport
        rw [activeBan, Bool.and_eq_true, decide_eq_true_eq, decide_eq_true_eq]
        refine ⟨hstate, lt_of_le_of_lt call.now_le_ended (lt_of_lt_of_le ?_ hlong)⟩
        exact lt_add_one _
  · rintro call answer rfl hanswer
    cases hstep with
    | unban hclock =>
        have hmax : 0 ≤ cfg.maxBanSeconds := le_trans (by decide) (fromDict_ok hcfg).2.2.1
        have hwp := wp_unbanIp hlib hmax (hinv.store.later hclock)
        rcases hreturn : unbanIp lib cfg call s.store with ⟨_ | found, store⟩
        · rw [hreturn] at hanswer
          cases hanswer
        · obtain ⟨hstore, ip, hraw, hfree⟩ := Tx.wp_ok hwp hreturn
          refine ⟨ip, hraw, fun fs u again v hsuffix hsync => ?_⟩
          have hreads : Reads lib store.db := fun k row hrow =>
            (brokerIp_ok (hstore.address k row hrow)).1
          obtain ⟨hfree', hreads'⟩ := free_run hlib hfree hreads hsuffix
          exact (free_step hlib hfree' hreads' hsync trivial).2.2 again rfl

end Runs

/-! ### One ban and its replay -/

/-- Public addresses are written in one way. -/
theorem canonical_publicIps : Canonical publicIps := by
  intro raw ip h
  unfold normalizeIp at h
  split at h
  · split at h
    · cases h
    · split at h
      · cases h
      · rename_i a ha
        have hip : ip = a := (Except.ok.inj h).symm
        have hmem : a ∈ ["8.8.8.8", "8.8.4.4"] := by
          unfold publicIps at ha
          dsimp only at ha
          split at ha
          · rename_i hmem
            rw [← Option.some.inj ha]
            exact hmem
          · cases ha
        subst hip
        simp only [List.mem_cons, List.not_mem_nil, or_false] at hmem
        rcases hmem with rfl | rfl
        · decide +kernel
        · decide +kernel
  · cases h

/-- One client, who may use one address. -/
def onePolicy : PanelPolicy where
  enforce := true
  direct := true
  windowSeconds := 120
  banSeconds := 60
  exemption := fun _ => none
  clients := [("alice", ⟨"owner", 1, [443]⟩)]
  ports_normal := by decide +kernel
  ports_ne_nil := by decide +kernel
  ban_least := by decide

/-- The name of the group of its port. -/
def oneJail (_ports : List ℤ) : String :=
  "dark-xray-6d05621ab7cb"

/-- A broker that answers at once. -/
def atOnce (now : ℚ) : Reachable where
  toEnvironment := instant now .completed
  completed := by
    intro command
    cases command <;> rfl

/-- A synchronization at an instant. -/
def syncAt (now : ℚ) : SyncCall where
  began := now
  check := atOnce now
  now := now
  ban := fun _ => atOnce now
  last := atOnce now
  ended := now
  began_le_check := le_rfl
  check_le_now := le_rfl
  now_le_ban := fun _ => le_rfl
  ban_le_ended := fun _ => le_rfl
  now_le_last := le_rfl
  last_le_ended := le_rfl

/-- An observation of the client at an instant. -/
def seenAt (ip : String) (now : ℚ) : ObserveCall where
  email := "alice"
  rawIp := ip
  now := now
  env := atOnce now
  now_le := le_rfl

/-- The panel and the broker at their start. -/
def panelStart : BanSystem :=
  ⟨onePolicy, none, .observing,
    ⟨⟨Table.empty, Table.empty, []⟩, bootstrapped oneConfig, fun _ => none⟩, 0⟩

/-- After a synchronization. -/
def synced (s : BanSystem) (now : ℚ) : BanSystem :=
  syncIpGuard oneJail publicIps oneConfig s (syncAt now)

/-- After an observation. -/
def noticed (s : BanSystem) (ip : String) (now : ℚ) : BanSystem :=
  { s with store := (observeBanning oneJail publicIps oneConfig onePolicy (seenAt ip now) s.store).2
           clock := now }

/-- The second address of the client is banned. -/
def secondBanned : BanSystem :=
  noticed (noticed (synced panelStart 0) "8.8.8.8" 1) "8.8.4.4" 2

/-- The broker approves the policy. -/
theorem approved_onePolicy : Approved oneConfig oneJail onePolicy :=
  ⟨rfl, rfl, by decide +kernel, by decide⟩

/-- The panel starts as it should. -/
theorem banStart_panelStart : BanStart oneConfig oneJail panelStart :=
  ⟨approved_onePolicy, rfl, rfl, rfl⟩

/-- The first synchronization is a step. -/
theorem step_first : BanStep publicIps oneConfig oneJail panelStart (.sync (syncAt 0))
    (synced panelStart 0) :=
  BanStep.sync le_rfl

/-- An observation is a step. -/
theorem step_seen {s : BanSystem} {ip : String} {now : ℚ} (hexecutor : s.executor = some onePolicy)
    (hclock : s.clock ≤ now) : BanStep publicIps oneConfig oneJail s (.observe (seenAt ip now))
      (noticed s ip now) :=
  BanStep.observe hexecutor hclock

/-- The first synchronization installs the executor. -/
theorem executor_synced : (synced panelStart 0).executor = some onePolicy :=
  executor_of_applied (by decide +kernel)

/-- Two addresses of the client are seen, and the second one is banned. -/
theorem run_secondBanned : Run (Guarded (BanStep publicIps oneConfig oneJail)
    (Unhurried publicIps oneJail)) panelStart
      [.sync (syncAt 0), .observe (seenAt "8.8.8.8" 1), .observe (seenAt "8.8.4.4" 2)]
        secondBanned := by
  have hempty : ∀ s : BanSystem, s.store.firewall.elements.rows = [] → ∀ k now,
      s.store.firewall.elements.alive k now ≠ true := by
    intro s hrows k now halive
    obtain ⟨x, hx, -⟩ := Table.alive_iff.mp halive
    rw [Table.get?_eq_some_iff, hrows] at hx
    exact (List.not_mem_nil hx).elim
  have hseen : ∀ (s : BanSystem) (ip : String) (now : ℚ),
      s.store.firewall.elements.rows = [] → Undelayed publicIps s.store (seenAt ip now) := by
    intro s ip now hrows
    refine ⟨(lt_add_one now).le, fun ip' port _ halive => ?_⟩
    exact (hempty s hrows _ _ halive).elim
  have hreplay : Replayable oneJail onePolicy panelStart.store (syncAt 0) := by
    refine ⟨by decide +kernel, fun k halive => ?_, fun _ hban => (List.not_mem_nil hban).elim,
      fun _ hban => (List.not_mem_nil hban).elim, by decide +kernel⟩
    exact (hempty panelStart rfl _ _ halive).elim
  have hnil : Run (Guarded (BanStep publicIps oneConfig oneJail) (Unhurried publicIps oneJail))
      panelStart [] panelStart := Run.nil
  have hfirst := hnil.snoc ⟨step_first, fun _ => hreplay⟩
  have hsecond := hfirst.snoc ⟨step_seen executor_synced (by decide +kernel),
    hseen (synced panelStart 0) "8.8.8.8" 1 (by decide +kernel)⟩
  exact hsecond.snoc ⟨step_seen executor_synced (by decide +kernel),
    hseen (noticed (synced panelStart 0) "8.8.8.8" 1) "8.8.4.4" 2 (by decide +kernel)⟩

/-- A ban that is replayed is in force. -/
theorem bans_stay_enforced_after_ban :
    (synced secondBanned 5).state = .applied ∧
      (synced secondBanned 5).executor = some onePolicy ∧
        Enforces oneJail onePolicy (synced secondBanned 5) := by
  have hrows : secondBanned.store.db.bans.rows =
      [((oneJail [443], "8.8.4.4"), ⟨"alice", 62, "applied"⟩)] := by decide +kernel
  have helements : secondBanned.store.firewall.elements.rows =
      [(element ("8.8.4.4", 443), 62)] := by decide +kernel
  have hreplay : Replayable oneJail onePolicy secondBanned.store (syncAt 5) := by
    refine ⟨by decide +kernel, fun k halive => ?_, fun ban hban _ => ?_, fun ban hban _ => ?_,
      by decide +kernel⟩
    · obtain ⟨x, hx, -⟩ := Table.alive_iff.mp halive
      rw [Table.get?_eq_some_iff, helements, List.mem_singleton] at hx
      obtain rfl := element_injective (Prod.mk.inj hx).1
      decide +kernel
    · rw [hrows, List.mem_singleton] at hban
      subst hban
      exact ⟨[443], by decide +kernel⟩
    · rw [hrows, List.mem_singleton] at hban
      subst hban
      decide +kernel
  have hstep : Guarded (BanStep publicIps oneConfig oneJail) (Unhurried publicIps oneJail)
      secondBanned (.sync (syncAt 5)) (synced secondBanned 5) :=
    ⟨BanStep.sync (by decide +kernel), fun _ => hreplay⟩
  exact (bans_stay_enforced canonical_publicIps fromDict_oneValue banStart_panelStart
    run_secondBanned hstep).1 (syncAt 5) rfl rfl

/-- A minute's ban is on record, and seven seconds of it are left: the broker refuses to replay a
ban of less than ten seconds, and the synchronization leaves no executor. -/
theorem short_ban_stops_enforcement :
    BrokerConfig.fromDict publicIps (some oneValue) = .ok oneConfig ∧
      BanStart oneConfig oneJail panelStart ∧ ∃ s t,
        Run (BanStep publicIps oneConfig oneJail) panelStart
          [.sync (syncAt 0), .observe (seenAt "8.8.8.8" 1), .observe (seenAt "8.8.4.4" 2)] s ∧
        BanStep publicIps oneConfig oneJail s (.sync (syncAt 55)) t ∧
        s.policy.enforce = true ∧
        s.store.db.bans.get? (oneJail [443], "8.8.4.4") = some ⟨"alice", 62, "applied"⟩ ∧
        t.state = .error ∧ t.executor = none := by
  refine ⟨fromDict_oneValue, banStart_panelStart, secondBanned, synced secondBanned 55,
    run_secondBanned.of_guarded, BanStep.sync (by decide +kernel), rfl, by decide +kernel,
    by decide +kernel, executor_of_not_applied (by decide +kernel)⟩

end Policy
end DarkXray
