import Mathlib.Data.List.DropRight
import DarkXray.Core.HostChecks
import DarkXray.Deployment.Cutover

/-!
# What a Node advertises after its replacement

The hosts of a Node that customers are given, before and after the cutover to a
replacement.  The plan knows one former address, the one of the last retirement record, and
looks for it in the primary address of a host only.

Main results:

- Theorem {lit}`cutHost_cases`: what becomes of a host of an assigned inbound.
- Theorem {lit}`cutover_again`: a second cutover has nothing to do.
- Theorem {lit}`cutover_retires_iff`: when the retired addresses are gone and the section is
  accepted again.
- Theorem {lit}`older_address_stays`: a replacement that was itself replaced leaves the first
  address in use.
-/

namespace DarkXray
namespace Deployment

open Library Core

/-! ## Hosts of an assigned inbound -/

section Hosts

variable {c : Handover} {runtime : String} {id : ℕ} {port : Port} {host : Doc}
  {ports : List (ℕ × Port)} {hosts before : List Doc}

theorem isEnabled_disabled (hd : host.isDict = true) :
    isEnabled (host.set "enable" (.bool false)) = false := by
  rw [isEnabled, Doc.getD, Doc.get?_set hd, if_pos rfl]
  rfl

theorem hasType_congr {host' : Doc} (h : host'.get? "endpointType" = host.get? "endpointType")
    (kind : String) : hasType kind host' = hasType kind host := by
  unfold hasType
  rw [truthyAt_congr h, h]

theorem isEnabled_congr {host' : Doc} (h : host'.get? "enable" = host.get? "enable") :
    isEnabled host' = isEnabled host := by
  unfold isEnabled Doc.getD
  rw [h]

theorem isTarget_movedHost (hd : host.isDict = true) :
    isTarget runtime id (movedHost c port host) = isTarget runtime id host := by
  refine isTarget_congr ?_ ?_
  · simp [get?_movedHost hd]
  · simp [get?_movedHost hd]

theorem hasType_movedHost (hd : host.isDict = true) (kind : String) :
    hasType kind (movedHost c port host) = hasType kind host :=
  hasType_congr (by simp [get?_movedHost hd]) kind

theorem isEnabled_movedHost (hd : host.isDict = true) :
    isEnabled (movedHost c port host) = isEnabled host :=
  isEnabled_congr (by simp [get?_movedHost hd])

theorem isTunnel_movedHost (hd : host.isDict = true) :
    isTunnel runtime id (movedHost c port host) = isTunnel runtime id host := by
  unfold isTunnel
  rw [isTarget_movedHost hd, hasType_movedHost hd, isEnabled_movedHost hd]

/-- What becomes of a host of an inbound. -/
theorem cutHost_cases (port : Port) (hosts before : List Doc)
    (h : isTarget c.runtime id host = true) :
    (mustMove c id host = true ∧ cutHost c id port hosts before host = movedHost c port host) ∨
    (mustMove c id host = false ∧ isTunnel c.runtime id host = false ∧
      cutHost c id port hosts before host = host) ∨
    (isTunnel c.runtime id host = true ∧ hosts.any (isDirect c.runtime id) = false ∧
      before.any (isTunnel c.runtime id) = false ∧
      cutHost c id port hosts before host = toDirect c port host) ∨
    (isTunnel c.runtime id host = true ∧
      (hosts.any (isDirect c.runtime id) || before.any (isTunnel c.runtime id)) = true ∧
      cutHost c id port hosts before host = host.set "enable" (.bool false)) := by
  have hd := isDict_of_isTarget h
  by_cases htunnel : isTunnel c.runtime id host = true
  · have hmove : mustMove c id host = false := by
      cases hdirect : isDirect c.runtime id host with
      | false => simp [mustMove, hdirect]
      | true => rw [isTunnel_of_isDirect hdirect] at htunnel; cases htunnel
    by_cases hopen : (hosts.any (isDirect c.runtime id) ||
        before.any (isTunnel c.runtime id)) = true
    · refine Or.inr (Or.inr (Or.inr ⟨htunnel, hopen, ?_⟩))
      rw [cutHost, hopen, moveFormer_of_not hmove]
      simp [disableTunnel, htunnel]
    · rw [Bool.not_eq_true] at hopen
      have hparts := Bool.or_eq_false_iff.mp hopen
      refine Or.inr (Or.inr (Or.inl ⟨htunnel, hparts.1, hparts.2, ?_⟩))
      rw [cutHost, hopen, htunnel]
      rfl
  · rw [Bool.not_eq_true] at htunnel
    have hcut : cutHost c id port hosts before host =
        disableTunnel c.runtime id (moveFormer c id port host) := by
      rw [cutHost, htunnel]
      rfl
    by_cases hmove : mustMove c id host = true
    · refine Or.inl ⟨hmove, ?_⟩
      rw [hcut, moveFormer, if_pos hmove]
      exact disableTunnel_of_not (by rw [isTunnel_movedHost hd, htunnel])
    · rw [Bool.not_eq_true] at hmove
      exact Or.inr (Or.inl ⟨hmove, htunnel, by
        rw [hcut, moveFormer_of_not hmove, disableTunnel_of_not htunnel]⟩)

/-- After the edit of an inbound its enabled hosts are direct ones at their place. -/
theorem settled_cutHost (h : isTarget c.runtime id host = true) :
    isTunnel c.runtime id (cutHost c id port hosts before host) = false ∧
      mustMove c id (cutHost c id port hosts before host) = false := by
  have hd := isDict_of_isTarget h
  rcases cutHost_cases port hosts before h with
    ⟨hmove, heq⟩ | ⟨hmove, htunnel, heq⟩ | ⟨_, _, _, heq⟩ | ⟨_, _, heq⟩
  · rw [heq]
    have hdirect := isTunnel_of_isDirect (Bool.and_eq_true _ _ |>.mp hmove).1
    refine ⟨by rw [isTunnel_movedHost hd, hdirect], ?_⟩
    have hformer : isFormer c (movedHost c port host) = false :=
      isFormer_of_address (by simp [get?_movedHost hd])
    simp [mustMove, hformer]
  · rw [heq]
    exact ⟨htunnel, hmove⟩
  · rw [heq]
    have hformer : isFormer c (toDirect c port host) = false :=
      isFormer_of_address (by simp [get?_toDirect hd])
    exact ⟨by simp [isTunnel, hasType_toDirect hd], by simp [mustMove, hformer]⟩
  · rw [heq]
    exact ⟨by simp [isTunnel, isEnabled_disabled hd],
      by simp [mustMove, isDirect, isEnabled_disabled hd]⟩

end Hosts

/-! ## The section after the cutover -/

section After

variable {c : Handover} {inbounds : Table ℕ Inbound} {ids : List ℕ} {hosts : List Doc}

/-- A host of an assigned inbound is edited once. -/
theorem brought_of_mem {a : ℕ × Port} {before : List Doc} {host : Doc}
    (ha : a ∈ portsOf inbounds ids) (h : isTarget c.runtime a.1 host = true) :
    brought c (portsOf inbounds ids) hosts before host = cutHost c a.1 a.2 hosts before host := by
  unfold brought
  cases hfound : (portsOf inbounds ids).find? fun a => isTarget c.runtime a.1 host with
  | none =>
      rw [List.find?_eq_none] at hfound
      exact absurd h (hfound a ha)
  | some b =>
      have hb : isTarget c.runtime b.1 host = true := by
        simpa using List.find?_some hfound
      have hid : b.1 = a.1 := isTarget_unique hb h
      obtain ⟨_, v, hv, hport⟩ := mem_portsOf.mp (List.mem_of_find?_eq_some hfound)
      obtain ⟨_, w, hw, hport'⟩ := mem_portsOf.mp ha
      rw [hid, hw] at hv
      rw [Option.elim_some, hid, ← hport, ← hport', Option.some.inj hv]

/-- A host of no assigned inbound stays as it is. -/
theorem brought_of_foreign {ports : List (ℕ × Port)} {before : List Doc} {host : Doc}
    (h : ∀ a ∈ ports, isTarget c.runtime a.1 host = false) :
    brought c ports hosts before host = host := by
  unfold brought
  have hnone : (ports.find? fun a => isTarget c.runtime a.1 host) = none := by
    rw [List.find?_eq_none]
    intro a ha
    simp [h a ha]
  rw [hnone, Option.elim_none]

/-- The hosts after the cutover: each comes from one that was there, or is new. -/
theorem mem_broughtOver {ports : List (ℕ × Port)} {host' : Doc} :
    host' ∈ broughtOver c ports hosts ↔
      (∃ (j : ℕ) (host : Doc), hosts[j]? = some host ∧
        host' = brought c ports hosts (hosts.take j) host) ∨
      ∃ a ∈ ports, hosts.any (isTarget c.runtime a.1) = false ∧ host' = addedHost c a.1 a.2 := by
  unfold broughtOver
  rw [List.mem_append]
  refine or_congr ?_ ?_
  · rw [List.mem_mapIdx]
    constructor
    · rintro ⟨j, hj, heq⟩
      exact ⟨j, hosts[j], List.getElem?_eq_getElem hj, heq.symm⟩
    · rintro ⟨j, host, hj, heq⟩
      obtain ⟨hlt, hget⟩ := List.getElem?_eq_some_iff.mp hj
      exact ⟨j, hlt, by rw [hget, heq]⟩
  · unfold added addedFor
    rw [List.mem_flatMap]
    refine exists_congr fun a => and_congr_right fun _ => ?_
    by_cases hany : hosts.any (isTarget c.runtime a.1) = true
    · simp [hany]
    · rw [if_neg hany, List.mem_singleton, Bool.not_eq_true] at *
      simp [hany]

/-- The hosts of an assigned inbound after the cutover. -/
theorem target_broughtOver {a : ℕ × Port} {host' : Doc} (ha : a ∈ portsOf inbounds ids)
    (hmem : host' ∈ broughtOver c (portsOf inbounds ids) hosts)
    (h : isTarget c.runtime a.1 host' = true) :
    (∃ (j : ℕ) (host : Doc), hosts[j]? = some host ∧ isTarget c.runtime a.1 host = true ∧
      host' = cutHost c a.1 a.2 hosts (hosts.take j) host) ∨
    (hosts.any (isTarget c.runtime a.1) = false ∧ host' = addedHost c a.1 a.2) := by
  rcases mem_broughtOver.mp hmem with ⟨j, host, hj, heq⟩ | ⟨b, hb, hnone, heq⟩
  · rw [heq, isTarget_brought] at h
    exact Or.inl ⟨j, host, hj, h, by rw [heq, brought_of_mem ha h]⟩
  · rw [heq, isTarget_addedHost, Bool.and_eq_true, decide_eq_true_iff, decide_eq_true_iff] at h
    obtain ⟨_, v, hv, hport⟩ := mem_portsOf.mp ha
    obtain ⟨_, w, hw, hport'⟩ := mem_portsOf.mp hb
    rw [h.2, hv] at hw
    rw [h.2] at hnone heq
    refine Or.inr ⟨hnone, ?_⟩
    rw [heq, ← hport', ← hport, Option.some.inj hw]

/-- A host of an assigned inbound that was there is still there, edited. -/
theorem cutHost_mem {a : ℕ × Port} {j : ℕ} {host : Doc} (ha : a ∈ portsOf inbounds ids)
    (hj : hosts[j]? = some host) (h : isTarget c.runtime a.1 host = true) :
    cutHost c a.1 a.2 hosts (hosts.take j) host ∈ broughtOver c (portsOf inbounds ids) hosts :=
  mem_broughtOver.mpr (Or.inl ⟨j, host, hj, (brought_of_mem ha h).symm⟩)

/-- After the cutover an assigned inbound has hosts, and nothing is left to edit. -/
theorem settled_broughtOver (c : Handover) (hosts : List Doc) {a : ℕ × Port}
    (ha : a ∈ portsOf inbounds ids) :
    (∀ host ∈ broughtOver c (portsOf inbounds ids) hosts,
      isTunnel c.runtime a.1 host = false ∧ mustMove c a.1 host = false) ∧
      (broughtOver c (portsOf inbounds ids) hosts).any (isTarget c.runtime a.1) = true := by
  constructor
  · intro host' hmem
    by_cases htarget : isTarget c.runtime a.1 host' = true
    · rcases target_broughtOver ha hmem htarget with ⟨j, host, hj, hhost, heq⟩ | ⟨_, heq⟩
      · rw [heq]
        exact settled_cutHost hhost
      · rw [heq]
        have hformer : isFormer c (addedHost c a.1 a.2) = false := isFormer_of_address rfl
        exact ⟨by simp [isTunnel, hasType_addedHost], by simp [mustMove, hformer]⟩
    · rw [Bool.not_eq_true] at htarget
      exact ⟨by simp [isTunnel, htarget], by simp [mustMove, isDirect, htarget]⟩
  · by_cases hany : hosts.any (isTarget c.runtime a.1) = true
    · obtain ⟨host, hmem, hhost⟩ := List.any_eq_true.mp hany
      obtain ⟨j, hj⟩ := List.getElem?_of_mem hmem
      refine List.any_eq_true.mpr ⟨_, cutHost_mem ha hj hhost, ?_⟩
      rw [isTarget_cutHost, hhost]
    · rw [Bool.not_eq_true] at hany
      refine List.any_eq_true.mpr ⟨addedHost c a.1 a.2,
        mem_broughtOver.mpr (Or.inr ⟨a, ha, hany, rfl⟩), ?_⟩
      simp [isTarget_addedHost]

/-- An edit that has nothing to do. -/
theorem cutInbound_settled {id : ℕ} {port : Port}
    (hsettled : ∀ host ∈ hosts, isTunnel c.runtime id host = false ∧ mustMove c id host = false)
    (htarget : hosts.any (isTarget c.runtime id) = true) :
    cutInbound c id port hosts = .ok (hosts, []) := by
  have htunnel : hosts.any (isTunnel c.runtime id) = false := by
    rw [List.any_eq_false]
    intro host hmem
    simp [(hsettled host hmem).1]
  have hopened : openInbound c id port hosts = (hosts, []) := by
    simp [openInbound, htunnel, htarget]
  have hmoved : hosts.map (moveFormer c id port) = hosts := by
    refine (List.map_congr_left fun host hmem => ?_).trans (List.map_id hosts)
    exact moveFormer_of_not (hsettled host hmem).2
  have hdisabled : hosts.map (disableTunnel c.runtime id) = hosts := by
    refine (List.map_congr_left fun host hmem => ?_).trans (List.map_id hosts)
    exact disableTunnel_of_not (hsettled host hmem).1
  have hraise : (hosts.any fun host => mustMove c id host && !hashable host) = false := by
    rw [List.any_eq_false]
    intro host hmem
    simp [(hsettled host hmem).2]
  have hmoves : hosts.countP (mustMove c id) = 0 := by
    rw [List.countP_eq_zero]
    intro host hmem
    simp [(hsettled host hmem).2]
  have htunnels : hosts.countP (isTunnel c.runtime id) = 0 := by
    rw [List.countP_eq_zero]
    intro host hmem
    simp [(hsettled host hmem).1]
  simp [cutInbound, hopened, hraise, hmoved, hdisabled, hmoves, htunnels]

/-- A plan that has nothing to do. -/
theorem foldlM_settled {plan : CutoverPlan}
    (hround : ∀ id ∈ ids, ∃ v, inbounds.get? id = some v ∧ clearTunnelPort c.runtime v = none ∧
      cutInbound c id v.port plan.hosts = .ok (plan.hosts, [])) :
    ids.foldlM (cutAssigned c inbounds) plan = .ok plan := by
  induction ids with
  | nil => rfl
  | cons id ids ih =>
      obtain ⟨v, hv, hclear, hcut⟩ := hround id List.mem_cons_self
      have hfirst : cutAssigned c inbounds plan id = .ok plan := by
        unfold cutAssigned
        rw [hv, Option.elim_some]
        change (cutInbound c id v.port plan.hosts >>= _) = _
        rw [hcut]
        change Except.ok _ = Except.ok plan
        simp [hclear]
      rw [List.foldlM_cons, hfirst]
      exact ih fun id' hid' => hround id' (List.mem_cons_of_mem _ hid')

end After

/-! ## The inbounds after the cutover -/

/-- The tunnel port of a runtime that an inbound keeps. -/
def tunnelPortOf (runtime : String) (v : Inbound) : Option Doc :=
  (v.panelMeta.get? "tunnelPorts").bind fun ports => ports.get? runtime

theorem clearTunnelPort_of_none {runtime : String} {v : Inbound} (h : tunnelPortOf runtime v = none) :
    clearTunnelPort runtime v = none := by
  unfold tunnelPortOf at h
  unfold clearTunnelPort
  cases hports : v.panelMeta.get? "tunnelPorts" with
  | none => rfl
  | some entries =>
      rw [hports, Option.bind_some] at h
      rw [Option.bind_some, h]
      rfl

/-- A tunnel port is cleared if there is one. -/
theorem clearTunnelPort_cases (runtime : String) (v : Inbound) :
    (tunnelPortOf runtime v = none ∧ clearTunnelPort runtime v = none) ∨
      ∃ w, clearTunnelPort runtime v = some w ∧ tunnelPortOf runtime w = none ∧ w.port = v.port := by
  unfold clearTunnelPort tunnelPortOf
  cases hports : v.panelMeta.get? "tunnelPorts" with
  | none => exact Or.inl ⟨rfl, rfl⟩
  | some entries =>
      rw [Option.bind_some, Option.bind_some]
      cases hentry : entries.get? runtime with
      | none => exact Or.inl ⟨rfl, rfl⟩
      | some entry =>
          refine Or.inr ⟨_, rfl, ?_, rfl⟩
          dsimp only
          rw [Doc.get?_set (Doc.isDict_of_get? hports), if_pos rfl, Option.bind_some,
            Doc.get?_erase, if_pos rfl]

theorem mem_clearedOf {runtime : String} {inbounds : Table ℕ Inbound} {ids : List ℕ}
    {a : ℕ × Inbound} : a ∈ clearedOf runtime inbounds ids ↔
      a.1 ∈ ids ∧ ∃ v, inbounds.get? a.1 = some v ∧ clearTunnelPort runtime v = some a.2 := by
  unfold clearedOf
  rw [List.mem_filterMap]
  constructor
  · rintro ⟨id, hid, heq⟩
    rw [Option.map_eq_some_iff] at heq
    obtain ⟨w, hw, rfl⟩ := heq
    exact ⟨hid, Option.bind_eq_some_iff.mp hw⟩
  · rintro ⟨hid, v, hv, hw⟩
    exact ⟨a.1, hid, by rw [hv, Option.bind_some, hw, Option.map_some]⟩

theorem nodup_clearedOf {runtime : String} {inbounds : Table ℕ Inbound} {ids : List ℕ}
    (hids : ids.Nodup) : ((clearedOf runtime inbounds ids).map Prod.fst).Nodup := by
  unfold clearedOf
  rw [List.map_filterMap]
  refine hids.filterMap ?_
  intro id id' b hb hb'
  simp only [Option.map_map, Option.mem_def, Option.map_eq_some_iff, Function.comp_apply] at hb hb'
  obtain ⟨_, _, rfl⟩ := hb
  obtain ⟨_, _, heq⟩ := hb'
  exact heq.symm

/-- The inbounds after the cutover, one by one. -/
theorem get?_carryOut {s : CutoverStore} {plan : CutoverPlan} {runtime : String} {ids : List ℕ}
    (hids : ids.Nodup) (hplan : plan.inboundChanges = clearedOf runtime s.core.inbounds ids)
    {id : ℕ} (hid : id ∈ ids) {v : Inbound} (hv : s.core.inbounds.get? id = some v) :
    ∃ w, (s.carryOut plan).core.inbounds.get? id = some w ∧ w.port = v.port ∧
      tunnelPortOf runtime w = none := by
  have hother : ∀ (t : Table ℕ Inbound) (x : ℕ × Inbound) (k : ℕ), k ≠ x.1 →
      (t.update x.1 fun _ => x.2).get? k = t.get? k := by
    intro t x k hk
    rw [Table.get?_update, if_neg hk]
  have hself : ∀ (t : Table ℕ Inbound) (x : ℕ × Inbound),
      (t.update x.1 fun _ => x.2).get? x.1 = (t.get? x.1).map fun _ => x.2 := by
    intro t x
    rw [Table.get?_update, if_pos rfl]
  change ∃ w, (plan.inboundChanges.foldl (fun t row => t.update row.1 fun _ => row.2)
    s.core.inbounds).get? id = some w ∧ _
  rw [hplan]
  rcases clearTunnelPort_cases runtime v with ⟨hnone, hclear⟩ | ⟨w, hclear, hnone, hport⟩
  · refine ⟨v, ?_, rfl, hnone⟩
    rw [Table.get?_foldl_of_not_mem hother ?_, hv]
    intro hmem
    obtain ⟨a, ha, rfl⟩ := List.mem_map.mp hmem
    obtain ⟨_, v', hv', hclear'⟩ := mem_clearedOf.mp ha
    rw [hv, Option.some.injEq] at hv'
    rw [← hv', hclear] at hclear'
    cases hclear'
  · refine ⟨w, ?_, hport, hnone⟩
    have hfold := Table.get?_foldl_of_mem (f := fun _ w row => row.map fun _ => w) hother hself
      (nodup_clearedOf hids) (mem_clearedOf.mpr ⟨hid, v, hv, hclear⟩) s.core.inbounds
    rw [hfold, hv, Option.map_some]

/-- The cutover keeps the ids of the inbounds. -/
theorem keys_carryOut (s : CutoverStore) (plan : CutoverPlan) :
    (s.carryOut plan).core.inbounds.rows.map Prod.fst = s.core.inbounds.rows.map Prod.fst := by
  change (plan.inboundChanges.foldl (fun t row => t.update row.1 fun _ => row.2)
    s.core.inbounds).rows.map Prod.fst = _
  generalize s.core.inbounds = inbounds
  induction plan.inboundChanges generalizing inbounds with
  | nil => rfl
  | cons row rows ih =>
      rw [List.foldl_cons, ih]
      simp [Table.update, Table.mapRows, Function.comp_def]

/-! ## Addresses -/

/-- The addresses that a host lists. -/
def advertised (host : Doc) : List String :=
  ((host.get? "address").bind Doc.str?).toList ++ (host.itemsAt "addresses").filterMap Doc.str?

section Addresses

variable {c : Handover} {port : Port} {host : Doc} {e : String}

theorem str?_eq_some_iff {d : Doc} : d.str? = some e ↔ d = .str e := by
  have hbind : (some d).bind Doc.str? = some e ↔ some d = some (.str e) := Doc.bind_str?_iff
  simpa using hbind

theorem norm?_eq_str_iff {d : Doc} : d.norm? = some (.str e) ↔ d = .str e := by
  cases d with
  | atom a => cases a <;> simp [Doc.norm?, Atom.norm, Doc.str]
  | list items => simp [Doc.norm?, Doc.str]
  | dict fields => simp [Doc.norm?, Doc.str]

theorem mem_advertised_iff : e ∈ advertised host ↔
    host.get? "address" = some (.str e) ∨ Doc.str e ∈ host.itemsAt "addresses" := by
  unfold advertised
  rw [List.mem_append, List.mem_filterMap, Option.mem_toList, Doc.bind_str?_iff]
  refine or_congr_right ?_
  constructor
  · rintro ⟨d, hd, htext⟩
    rwa [str?_eq_some_iff.mp htext] at hd
  · intro hmem
    exact ⟨_, hmem, rfl⟩

/-- To drop repetitions drops no text. -/
theorem str_mem_uniqueValues {items : List Doc} :
    Doc.str e ∈ uniqueValues items ↔ Doc.str e ∈ items := by
  have hfold : ∀ seen : List Doc, Doc.str e ∈ items.foldl (fun seen d =>
      if seen.any fun e => e.norm? = d.norm? then seen else seen ++ [d]) seen ↔
        Doc.str e ∈ seen ∨ Doc.str e ∈ items := by
    induction items with
    | nil => intro seen; simp
    | cons d items ih =>
        intro seen
        rw [List.foldl_cons, ih, List.mem_cons]
        by_cases hseen : (seen.any fun e => e.norm? = d.norm?) = true
        · rw [if_pos hseen]
          obtain ⟨x, hx, hnorm⟩ := List.any_eq_true.mp hseen
          rw [decide_eq_true_iff] at hnorm
          constructor
          · rintro (hmem | hmem)
            · exact Or.inl hmem
            · exact Or.inr (Or.inr hmem)
          · rintro (hmem | hd | hmem)
            · exact Or.inl hmem
            · rw [← hd] at hnorm
              rw [norm?_eq_str_iff.mp hnorm] at hx
              exact Or.inl hx
            · exact Or.inr hmem
        · rw [if_neg hseen, List.mem_append, List.mem_singleton, or_assoc]
  unfold uniqueValues
  rw [hfold []]
  simp

theorem renewedEntry_eq_str_iff {d : Doc} : renewedEntry c d = .str e ↔
    (d = .str c.previous ∧ e = c.address) ∨ (d = .str e ∧ e ≠ c.previous) := by
  unfold renewedEntry
  by_cases hprevious : d.str? = some c.previous
  · rw [if_pos hprevious]
    rw [str?_eq_some_iff] at hprevious
    subst hprevious
    simp [Doc.str, eq_comm]
  · rw [if_neg hprevious]
    rw [str?_eq_some_iff] at hprevious
    constructor
    · intro hd
      refine Or.inr ⟨hd, fun he => hprevious ?_⟩
      rw [hd, he]
    · rintro (⟨hd, _⟩ | ⟨hd, _⟩)
      · exact absurd hd hprevious
      · exact hd

/-- The texts in the list of a host that moves. -/
theorem str_mem_movedHost (hd : host.isDict = true) :
    Doc.str e ∈ (movedHost c port host).itemsAt "addresses" ↔
      (Doc.str c.previous ∈ host.itemsAt "addresses" ∧ e = c.address) ∨
        (Doc.str e ∈ host.itemsAt "addresses" ∧ e ≠ c.previous) := by
  have hread : (movedHost c port host).get? "addresses" = (host.get? "addresses").map fun d =>
      d.list?.elim d fun entries => .list (uniqueValues (entries.map (renewedEntry c))) := by
    simp [get?_movedHost hd]
  unfold Doc.itemsAt
  rw [hread]
  cases hlist : (host.get? "addresses").bind Doc.list? with
  | none =>
      have hnone : ((host.get? "addresses").map fun d => d.list?.elim d fun entries =>
          Doc.list (uniqueValues (entries.map (renewedEntry c)))).bind Doc.list? = none := by
        cases hfield : host.get? "addresses" with
        | none => rfl
        | some d =>
            rw [hfield, Option.bind_some] at hlist
            rw [Option.map_some, hlist, Option.elim_none, Option.bind_some, hlist]
      rw [hnone]
      simp
  | some entries =>
      rw [Doc.bind_list?_iff.mp hlist]
      change Doc.str e ∈ uniqueValues (entries.map (renewedEntry c)) ↔ _
      rw [str_mem_uniqueValues, List.mem_map]
      simp only [renewedEntry_eq_str_iff, Option.getD_some]
      constructor
      · rintro ⟨d, hmem, ⟨rfl, he⟩ | ⟨rfl, he⟩⟩
        · exact Or.inl ⟨hmem, he⟩
        · exact Or.inr ⟨hmem, he⟩
      · rintro (⟨hmem, he⟩ | ⟨hmem, he⟩)
        · exact ⟨_, hmem, Or.inl ⟨rfl, he⟩⟩
        · exact ⟨_, hmem, Or.inr ⟨rfl, he⟩⟩

theorem isFormer_iff : isFormer c host = true ↔
    c.previous ≠ "" ∧ c.previous ≠ c.address ∧ host.get? "address" = some (.str c.previous) := by
  unfold isFormer
  rw [Bool.and_eq_true, Bool.and_eq_true, decide_eq_true_iff, decide_eq_true_iff,
    decide_eq_true_iff, Doc.bind_str?_iff, and_assoc]

/-- A host that moves lists the new address and what it listed beside the former one. -/
theorem mem_advertised_movedHost (hd : host.isDict = true) (hformer : isFormer c host = true)
    (he : e ≠ c.address) :
    e ∈ advertised (movedHost c port host) ↔ e ∈ advertised host ∧ e ≠ c.previous := by
  have haddress : (movedHost c port host).get? "address" = some (.str c.address) := by
    simp [get?_movedHost hd]
  have hprimary := (isFormer_iff.mp hformer).2.2
  rw [mem_advertised_iff, mem_advertised_iff, str_mem_movedHost hd, haddress, hprimary]
  have hnew : (some (Doc.str c.address) = some (Doc.str e)) ↔ False := by
    simp [Doc.str, Ne.symm he]
  have hold : (some (Doc.str c.previous) = some (Doc.str e)) ↔ e = c.previous := by
    simp [Doc.str, eq_comm]
  rw [hnew, hold]
  simp only [he, and_false, false_or]
  constructor
  · rintro ⟨hmem, hne⟩
    exact ⟨Or.inr hmem, hne⟩
  · rintro ⟨hmem | hmem, hne⟩
    · exact absurd hmem hne
    · exact ⟨hmem, hne⟩

end Addresses

/-! ## A second cutover -/

/-- What a cutover that goes well stores. -/
theorem cutover_ok {py : Builtins} {s t : CutoverStore} {node : NodeId}
    (h : cutover py s node = .ok t) :
    ∃ plan record, directHostCutover py s node = .ok plan ∧ t = s.carryOut plan ∧
      s.nodes.get? node = some record ∧ py.strip record.dataAddress ≠ "" ∧
      (∀ id ∈ s.assigned node, (s.core.inbounds.get? id).isSome = true) ∧
      t.core.hosts = broughtOver (s.handover py node record) (s.assignedPorts node) s.core.hosts ∧
      plan.inboundChanges = clearedOf node.runtime s.core.inbounds (s.assigned node) := by
  unfold cutover at h
  cases hplan : directHostCutover py s node with
  | error fault =>
      rw [hplan] at h
      cases h
  | ok plan =>
      rw [hplan] at h
      obtain ⟨record, hrecord, haddress, hsome, hhosts, hchanges⟩ := directHostCutover_hosts hplan
      exact ⟨plan, record, rfl, (Except.ok.inj h).symm, hrecord, haddress, hsome,
        (congrArg (fun u : CutoverStore => u.core.hosts) (Except.ok.inj h)).symm.trans hhosts,
        hchanges⟩

/-- A second cutover has nothing to do. -/
theorem cutover_again {py : Builtins} {s t : CutoverStore} {node : NodeId}
    (h : cutover py s node = .ok t) :
    directHostCutover py t node =
      .ok { hosts := t.core.hosts, inboundChanges := [], changes := [] } := by
  obtain ⟨plan, record, _, ht, hrecord, haddress, hsome, hhosts, hchanges⟩ := cutover_ok h
  have hnodes : t.nodes.get? node = some record := by
    rw [ht]
    exact hrecord
  have hassigned : t.assigned node = s.assigned node := by
    rw [ht]
    rfl
  have hhandover : t.handover py node record = s.handover py node record := by
    rw [ht]
    rfl
  unfold directHostCutover
  rw [hnodes, Option.elim_some, hassigned]
  change (ensure _ _ >>= fun _ => (s.assigned node).foldlM
    (cutAssigned (t.handover py node record) _) _) = _
  have hensure : ensure (py.strip record.dataAddress ≠ "")
      (CutoverFault.policyError "Replacement Direct address is missing") = .ok () :=
    ensure_ok_iff.mpr haddress
  rw [hhandover, hensure]
  refine foldlM_settled fun id hid => ?_
  obtain ⟨v, hv⟩ := Option.isSome_iff_exists.mp (hsome id hid)
  obtain ⟨w, hw, hport, hclear⟩ := get?_carryOut (s.nodup_assigned node) hchanges hid hv
  rw [← ht] at hw
  refine ⟨w, hw, ?_, ?_⟩
  · exact clearTunnelPort_of_none hclear
  · have hmem : (id, w.port) ∈ portsOf s.core.inbounds (s.assigned node) :=
      mem_portsOf.mpr ⟨hid, v, hv, hport.symm⟩
    dsimp only
    rw [hhosts]
    obtain ⟨hall, hany⟩ := settled_broughtOver (s.handover py node record) s.core.hosts hmem
    exact cutInbound_settled hall hany

/-! ## Accepted hosts -/

/-- What the removal of blanks at both ends does. -/
structure Strips (py : Builtins) : Prop where
  empty : py.strip "" = ""
  again : ∀ s, py.strip (py.strip s) = py.strip s

section Accepted

variable {py : Builtins} {c : Handover} {port : Port} {host : Doc} {known : List ℕ}

/-- The values without repetition: the first one is there, and no more than were given. -/
theorem uniqueValues_spec (items : List Doc) :
    (∀ d ∈ uniqueValues items, d ∈ items) ∧ (uniqueValues items).length ≤ items.length ∧
      (items ≠ [] → uniqueValues items ≠ []) := by
  have hfold : ∀ (items seen : List Doc), (∀ d ∈ items.foldl (fun seen d =>
      if seen.any fun e => e.norm? = d.norm? then seen else seen ++ [d]) seen,
        d ∈ seen ∨ d ∈ items) ∧
      (items.foldl (fun seen d =>
        if seen.any fun e => e.norm? = d.norm? then seen else seen ++ [d]) seen).length ≤
          seen.length + items.length ∧
      seen.length ≤ (items.foldl (fun seen d =>
        if seen.any fun e => e.norm? = d.norm? then seen else seen ++ [d]) seen).length := by
    intro items
    induction items with
    | nil => intro seen; simp
    | cons d items ih =>
        intro seen
        rw [List.foldl_cons, List.length_cons]
        by_cases hseen : (seen.any fun e => e.norm? = d.norm?) = true
        · rw [if_pos hseen]
          obtain ⟨hmem, hle, hge⟩ := ih seen
          refine ⟨fun x hx => ?_, by omega, hge⟩
          exact (hmem x hx).imp_right (List.mem_cons_of_mem d)
        · rw [if_neg hseen]
          obtain ⟨hmem, hle, hge⟩ := ih (seen ++ [d])
          rw [List.length_append, List.length_singleton] at hle hge
          refine ⟨fun x hx => ?_, by omega, by omega⟩
          rcases hmem x hx with hold | hnew
          · rcases List.mem_append.mp hold with hbefore | hlast
            · exact Or.inl hbefore
            · rw [List.mem_singleton.mp hlast]
              exact Or.inr List.mem_cons_self
          · exact Or.inr (List.mem_cons_of_mem d hnew)
  obtain ⟨hmem, hle, _⟩ := hfold items []
  rw [List.length_nil, Nat.zero_add] at hle
  refine ⟨fun d hd => (hmem d hd).resolve_left List.not_mem_nil, hle, ?_⟩
  intro hne
  obtain ⟨d, rest, rfl⟩ := List.exists_cons_of_ne_nil hne
  have hlength := (hfold rest [d]).2.2
  exact List.ne_nil_of_length_pos hlength

/-- A host that moves is accepted with its addresses if the new one is plain. -/
theorem hostAddresses_movedHost (hd : host.isDict = true)
    (h : ∃ address rest, hostAddresses py host = .ok (address :: rest))
    (hplain : plainAddress (py.strip c.address) = true) :
    ∃ address rest, hostAddresses py (movedHost c port host) = .ok (address :: rest) := by
  have haddress : (movedHost c port host).get? "address" = some (.str c.address) := by
    simp [get?_movedHost hd]
  have hlist : (movedHost c port host).get? "addresses" = (host.get? "addresses").map fun d =>
      d.list?.elim d fun entries => .list (uniqueValues (entries.map (renewedEntry c))) := by
    simp [get?_movedHost hd]
  have hgetD : (movedHost c port host).getD "address" (.str "") = .str c.address := by
    rw [Doc.getD, haddress, Option.getD_some]
  rw [hostAddresses_ok_iff] at h ⊢
  obtain ⟨raw, hraw, hitems, _⟩ := h
  have hprimary : ∀ p, (Doc.str c.address).str? = some p →
      py.strip p = "" ∨ plainAddress (py.strip p) = true := by
    intro p hp
    rw [← Option.some.inj hp]
    exact Or.inr hplain
  have hsingle : ∀ d ∈ [Doc.str c.address], ∃ e, d = .str e ∧ plainAddress (py.strip e) = true := by
    intro d hmem
    exact ⟨c.address, List.mem_singleton.mp hmem, hplain⟩
  rw [hgetD]
  unfold rawAddresses at hraw ⊢
  rw [hlist, hgetD]
  cases hfield : host.get? "addresses" with
  | none => exact ⟨_, rfl, hsingle, hprimary⟩
  | some d =>
      rw [hfield] at hraw
      cases d with
      | atom a =>
          cases a with
          | null => exact ⟨_, rfl, hsingle, hprimary⟩
          | bool b => cases hraw
          | int n => cases hraw
          | str s => cases hraw
      | dict fields => cases hraw
      | list entries =>
          change Option.filter _ (some entries) = some raw at hraw
          rw [Option.filter_eq_some_iff, Option.some.injEq, Bool.and_eq_true, decide_eq_true_iff,
            decide_eq_true_iff] at hraw
          obtain ⟨rfl, hpos, hmax⟩ := hraw
          obtain ⟨hsub, hle, hne⟩ := uniqueValues_spec (entries.map (renewedEntry c))
          rw [List.length_map] at hle
          refine ⟨uniqueValues (entries.map (renewedEntry c)), ?_, ?_, hprimary⟩
          · change Option.filter _ (some _) = some _
            rw [Option.filter_eq_some_iff, Bool.and_eq_true, decide_eq_true_iff,
              decide_eq_true_iff]
            refine ⟨rfl, List.length_pos_of_ne_nil (hne fun hnil => ?_), by omega⟩
            rw [List.map_eq_nil_iff] at hnil
            rw [hnil] at hpos
            simp at hpos
          · intro d hmem
            obtain ⟨entry, hentry, rfl⟩ := List.mem_map.mp (hsub d hmem)
            unfold renewedEntry
            split
            · exact ⟨c.address, rfl, hplain⟩
            · exact hitems entry hentry

theorem kind_of_direct (h : host.get? "endpointType" = some (.str "direct")) :
    ∃ kind, choiceAt host "endpointType" "direct" ["direct", "tunnel"]
      "Host endpointType must be direct or tunnel" = .ok kind := by
  refine ⟨"direct", ?_⟩
  unfold choiceAt Doc.truthyAt
  rw [h]
  rfl

/-- A host that is opened is accepted if the new address is plain. -/
theorem admissible_toDirect (h : Admissible py known host) (hremark : c.remark.length ≤ 8192)
    (hplain : plainAddress (py.strip c.address) = true) :
    Admissible py known (toDirect c port host) := by
  have hd : host.isDict = true := (Bool.and_eq_true _ _ |>.mp h.inbound).1
  refine h.edit ?_ ?_ ?_ ?_ ?_ ?_ ?_
  · have haddress : (toDirect c port host).get? "address" = some (.str c.address) := by
      simp [get?_toDirect hd]
    exact Doc.isDict_of_get? haddress
  · intro key hkey
    have hne : ∀ key ∈ keptFields, "addresses" ≠ key ∧ "enable" ≠ key ∧ "remark" ≠ key ∧
        "endpointType" ≠ key ∧ "port" ≠ key ∧ "address" ≠ key := by
      decide
    obtain ⟨h1, h2, h3, h4, h5, h6⟩ := hne key hkey
    rw [get?_toDirect hd, if_neg h1, if_neg h2, if_neg h3, if_neg h4, if_neg h5, if_neg h6]
  · exact (hostAddresses_single (by simp [get?_toDirect hd]) (by simp [get?_toDirect hd])).mpr hplain
  · simp [get?_toDirect hd]
  · have henable : (toDirect c port host).get? "enable" = some (.bool true) := by simp [get?_toDirect hd]
    rw [henable]
    rfl
  · exact kind_of_direct (by simp [get?_toDirect hd])
  · have htext : (toDirect c port host).get? "remark" = some (.str c.remark) := by simp [get?_toDirect hd]
    rw [htext]
    exact decide_eq_true hremark

/-- A host that moves is accepted if the new address is plain. -/
theorem admissible_movedHost (h : Admissible py known host)
    (hplain : plainAddress (py.strip c.address) = true) :
    Admissible py known (movedHost c port host) := by
  have hd : host.isDict = true := (Bool.and_eq_true _ _ |>.mp h.inbound).1
  refine h.edit ?_ ?_ (hostAddresses_movedHost hd h.addresses hplain) ?_ ?_ ?_ ?_
  · have haddress : (movedHost c port host).get? "address" = some (.str c.address) := by
      simp [get?_movedHost hd]
    exact Doc.isDict_of_get? haddress
  · intro key hkey
    have hne : ∀ key ∈ keptFields, "port" ≠ key ∧ "addresses" ≠ key ∧ "address" ≠ key := by
      decide
    obtain ⟨h1, h2, h3⟩ := hne key hkey
    rw [get?_movedHost hd, if_neg h1, if_neg h2, if_neg h3]
  · simp [get?_movedHost hd]
  · have henable : (movedHost c port host).get? "enable" = host.get? "enable" := by simp [get?_movedHost hd]
    rw [henable]
    exact h.enable
  · have hkind : (movedHost c port host).get? "endpointType" = host.get? "endpointType" := by
      simp [get?_movedHost hd]
    rw [choiceAt_congr hkind]
    exact h.endpointType
  · have hremark : (movedHost c port host).get? "remark" = host.get? "remark" := by simp [get?_movedHost hd]
    rw [hremark]
    exact h.texts "remark" (by decide)

/-- A host that is disabled stays accepted. -/
theorem admissible_disabled (h : Admissible py known host) :
    Admissible py known (host.set "enable" (.bool false)) := by
  have hd : host.isDict = true := (Bool.and_eq_true _ _ |>.mp h.inbound).1
  have hread : ∀ key, "enable" ≠ key →
      (host.set "enable" (.bool false)).get? key = host.get? key := fun key hne =>
    Doc.get?_set_of_ne host hne _
  refine h.edit (by rw [Doc.isDict_set, hd]) ?_ ?_ ?_ ?_ ?_ ?_
  · intro key hkey
    have hne : ∀ key ∈ keptFields, "enable" ≠ key := by
      decide
    exact hread key (hne key hkey)
  · have haddresses := h.addresses
    rw [hostAddresses_ok_iff] at haddresses ⊢
    unfold rawAddresses Doc.getD at haddresses ⊢
    rw [hread "addresses" (by decide), hread "address" (by decide)]
    exact haddresses
  · rw [hread "port" (by decide)]
    exact h.port
  · rw [Doc.get?_set hd, if_pos rfl]
    rfl
  · rw [choiceAt_congr (hread "endpointType" (by decide))]
    exact h.endpointType
  · rw [hread "remark" (by decide)]
    exact h.texts "remark" (by decide)

/-- A new host is accepted if the new address is plain. -/
theorem admissible_addedHost (hpy : Strips py) {id : ℕ} (hid : id ∈ known)
    (hruntime : runtimeRe c.runtime = true) (hremark : c.remark.length ≤ 8192)
    (hplain : plainAddress (py.strip c.address) = true) :
    Admissible py known (addedHost c id port) where
  inbound := by
    have hread : (addedHost c id port).get? "inboundId" = some (.int id) := rfl
    rw [hread]
    have hany : (known.any fun i => (i : ℤ) = (id : ℤ)) = true :=
      List.any_eq_true.mpr ⟨id, hid, decide_eq_true rfl⟩
    exact hany
  addresses := (hostAddresses_single rfl rfl).mpr hplain
  port := by
    have hread : (addedHost c id port).get? "port" = some port.doc := rfl
    rw [hread, Option.bind_some, Port.ofDoc?_doc]
    rfl
  enable := rfl
  runtime := by
    have hne : c.runtime ≠ "" := by
      intro hempty
      rw [hempty] at hruntime
      exact absurd hruntime (by decide)
    have hread : (addedHost c id port).get? "runtime" = some (.str c.runtime) := rfl
    have htruthy : (addedHost c id port).truthyAt "runtime" = true := by
      rw [Doc.truthyAt, hread]
      exact decide_eq_true hne
    refine ⟨c.runtime, ?_⟩
    rw [if_pos htruthy, hread, Option.filter_eq_some_iff]
    exact ⟨rfl, hruntime⟩
  endpointType := kind_of_direct rfl
  texts := by
    intro key hkey
    simp only [hostTexts, List.mem_cons, List.not_mem_nil, or_false] at hkey
    rcases hkey with rfl | rfl | rfl | rfl | rfl | rfl | rfl | rfl | rfl
    · exact decide_eq_true hremark
    all_goals rfl
  security := ⟨"same", rfl⟩
  switches := by
    intro key hkey
    simp only [hostSwitches, List.mem_cons, List.not_mem_nil, or_false] at hkey
    rcases hkey with rfl | rfl | rfl
    all_goals rfl
  apart := rfl
  excluded := rfl
  ipVersion := by
    have hread : textAt (addedHost c id port) "mihomoIpVersion" "" = some "" := rfl
    rw [hread]
    exact List.mem_cons_self
  mask := by
    have hread : textAt (addedHost c id port) "finalMask" "" = some "" := rfl
    exact ⟨"", by rw [finalMask, hread, Option.getD_some, hpy.empty, if_pos rfl]⟩
  alpn := by
    have hread : textAt (addedHost c id port) "alpn" "" = some "" := rfl
    exact ⟨none, by rw [hostAlpn, hread, Option.getD_some, hpy.empty, if_pos rfl]⟩

/-- The type of an accepted host. -/
theorem hasType_of_admissible (h : Admissible py known host) :
    hasType "direct" host = true ∨ hasType "tunnel" host = true := by
  obtain ⟨kind, hkind⟩ := h.endpointType
  unfold choiceAt at hkind
  rw [insist_ok_iff, Option.filter_eq_some_iff, decide_eq_true_iff] at hkind
  obtain ⟨hread, hmem⟩ := hkind
  unfold hasType
  by_cases htruthy : host.truthyAt "endpointType" = true
  · rw [if_pos htruthy] at hread
    rw [if_pos htruthy, if_pos htruthy, hread]
    simpa using hmem
  · rw [if_neg htruthy]
    exact Or.inl rfl

end Accepted

/-! ## The section as a whole -/

/-- Some host is given the new address. -/
def NeedsAddress (c : Handover) (ports : List (ℕ × Port)) (hosts : List Doc) : Prop :=
  ∃ a ∈ ports, hosts.any (isTarget c.runtime a.1) = false ∨
    (hosts.any (isDirect c.runtime a.1) = false ∧ hosts.any (isTunnel c.runtime a.1) = true) ∨
    hosts.any (mustMove c a.1) = true

/-- Every enabled host of an inbound lists a retired address only as the one that is looked
for, and as its primary address. -/
def OnlyFormer (c : Handover) (ports : List (ℕ × Port)) (retired : String → Prop)
    (hosts : List Doc) : Prop :=
  ∀ a ∈ ports, ∀ host ∈ hosts, isDirect c.runtime a.1 host = true → ∀ e ∈ advertised host,
    retired e → e ≠ c.address → isFormer c host = true ∧ e = c.previous

section Whole

variable {py : Builtins} {c : Handover} {inbounds : Table ℕ Inbound} {ids : List ℕ}
  {hosts : List Doc} {known : List ℕ} {retired : String → Prop}

/-- A list with a match has a first one. -/
theorem exists_first {α : Type} {p : α → Bool} {l : List α} (h : l.any p = true) :
    ∃ (j : ℕ) (a : α), l[j]? = some a ∧ p a = true ∧ (l.take j).any p = false := by
  induction l with
  | nil => cases h
  | cons a l ih =>
      by_cases ha : p a = true
      · exact ⟨0, a, rfl, ha, rfl⟩
      · rw [Bool.not_eq_true] at ha
        rw [List.any_cons, ha, Bool.false_or] at h
        obtain ⟨j, b, hj, hb, hfirst⟩ := ih h
        exact ⟨j + 1, b, hj, hb, by rw [List.take_succ_cons, List.any_cons, ha, hfirst]; rfl⟩

/-- When an inbound has no enabled direct host, its first tunnel is opened. -/
theorem opened_mem {a : ℕ × Port} (ha : a ∈ portsOf inbounds ids)
    (hdirect : hosts.any (isDirect c.runtime a.1) = false)
    (htunnel : hosts.any (isTunnel c.runtime a.1) = true) :
    ∃ host ∈ hosts, isTunnel c.runtime a.1 host = true ∧
      toDirect c a.2 host ∈ broughtOver c (portsOf inbounds ids) hosts := by
  obtain ⟨j, host, hj, hhost, hfirst⟩ := exists_first htunnel
  have hmem := cutHost_mem ha hj (isTarget_of_isTunnel hhost)
  refine ⟨host, List.mem_of_getElem? hj, hhost, ?_⟩
  rcases cutHost_cases a.2 hosts (hosts.take j)
    (isTarget_of_isTunnel hhost) with ⟨hmove, _⟩ | ⟨_, hnot, _⟩ | ⟨_, _, _, heq⟩ | ⟨_, hany, _⟩
  · rw [isTunnel_of_isDirect (Bool.and_eq_true _ _ |>.mp hmove).1] at hhost
    cases hhost
  · rw [hnot] at hhost
    cases hhost
  · rwa [heq] at hmem
  · rw [hdirect, hfirst] at hany
    cases hany

/-- An enabled direct host stays one. -/
theorem direct_mem {a : ℕ × Port} (ha : a ∈ portsOf inbounds ids) {host : Doc}
    (hhost : host ∈ hosts) (hdirect : isDirect c.runtime a.1 host = true) :
    (if isFormer c host then movedHost c a.2 host else host) ∈
      broughtOver c (portsOf inbounds ids) hosts := by
  obtain ⟨j, hj⟩ := List.getElem?_of_mem hhost
  have htarget := isTarget_of_isDirect hdirect
  have hmem := cutHost_mem ha hj htarget
  rcases cutHost_cases a.2 hosts (hosts.take j) htarget with
    ⟨hmove, heq⟩ | ⟨hmove, _, heq⟩ | ⟨htunnel, _⟩ | ⟨htunnel, _⟩
  · rw [heq] at hmem
    rwa [if_pos (Bool.and_eq_true _ _ |>.mp hmove).2]
  · rw [heq] at hmem
    have hformer : isFormer c host = false := by
      rwa [mustMove, hdirect, Bool.true_and] at hmove
    rwa [hformer, if_neg Bool.false_ne_true]
  · rw [isTunnel_of_isDirect hdirect] at htunnel
    cases htunnel
  · rw [isTunnel_of_isDirect hdirect] at htunnel
    cases htunnel

/-- The enabled hosts of an assigned inbound after the cutover: direct hosts that were there,
or hosts that list the new address only. -/
theorem enabled_broughtOver {a : ℕ × Port} (hadmissible : ∀ host ∈ hosts, Admissible py known host)
    (ha : a ∈ portsOf inbounds ids) {host' : Doc}
    (hmem : host' ∈ broughtOver c (portsOf inbounds ids) hosts)
    (htarget : isTarget c.runtime a.1 host' = true) (henabled : isEnabled host' = true) :
    hasType "direct" host' = true ∧
      ((∃ host ∈ hosts, isDirect c.runtime a.1 host = true ∧
        host' = if isFormer c host then movedHost c a.2 host else host) ∨
      ∀ e ∈ advertised host', e = c.address) := by
  rcases target_broughtOver ha hmem htarget with ⟨j, host, hj, hhost, heq⟩ | ⟨_, heq⟩
  · have hin := List.mem_of_getElem? hj
    have hd := isDict_of_isTarget hhost
    rcases cutHost_cases a.2 hosts (hosts.take j) hhost with
      ⟨hmove, hcut⟩ | ⟨hmove, hnot, hcut⟩ | ⟨_, _, _, hcut⟩ | ⟨_, _, hcut⟩
    · have hparts := Bool.and_eq_true _ _ |>.mp hmove
      have hkind : hasType "direct" host = true :=
        (Bool.and_eq_true _ _ |>.mp (Bool.and_eq_true _ _ |>.mp hparts.1).2).1
      rw [heq, hcut]
      exact ⟨by rw [hasType_movedHost hd, hkind],
        Or.inl ⟨host, hin, hparts.1, by rw [if_pos hparts.2]⟩⟩
    · rw [hcut] at heq
      subst heq
      have hkind : hasType "direct" host' = true := by
        rcases hasType_of_admissible (hadmissible host' hin) with hkind | hkind
        · exact hkind
        · rw [isTunnel, hhost, hkind, henabled] at hnot
          cases hnot
      have hdirect : isDirect c.runtime a.1 host' = true := by
        rw [isDirect, hhost, hkind, henabled]
        rfl
      have hformer : isFormer c host' = false := by
        rwa [mustMove, hdirect, Bool.true_and] at hmove
      exact ⟨hkind, Or.inl ⟨host', hin, hdirect, by rw [hformer, if_neg Bool.false_ne_true]⟩⟩
    · rw [heq, hcut]
      refine ⟨by rw [hasType_toDirect hd]; rfl, Or.inr fun e he => ?_⟩
      rw [mem_advertised_iff, Doc.itemsAt, get?_toDirect hd, get?_toDirect hd] at he
      simpa [Doc.str, eq_comm] using he
    · rw [heq, hcut, isEnabled_disabled hd] at henabled
      cases henabled
  · rw [heq]
    refine ⟨by rw [hasType_addedHost]; rfl, Or.inr fun e he => ?_⟩
    have haddress : (addedHost c a.1 a.2).get? "address" = some (.str c.address) := rfl
    have hlist : (addedHost c a.1 a.2).itemsAt "addresses" = [] := rfl
    rw [mem_advertised_iff, haddress, hlist] at he
    simpa [Doc.str, eq_comm] using he

/-- An inbound that had an enabled host still has one. -/
theorem enabled_kept {a : ℕ × Port} (ha : a ∈ portsOf inbounds ids) {host : Doc}
    (hadmissible : Admissible py known host) (hhost : host ∈ hosts)
    (htarget : isTarget c.runtime a.1 host = true) (henabled : isEnabled host = true) :
    ∃ host' ∈ broughtOver c (portsOf inbounds ids) hosts,
      isTarget c.runtime a.1 host' = true ∧ isEnabled host' = true := by
  by_cases hany : hosts.any (isDirect c.runtime a.1) = true
  · obtain ⟨direct, hmem, hdirect⟩ := List.any_eq_true.mp hany
    have hstays := direct_mem ha hmem hdirect
    have hparts := Bool.and_eq_true _ _ |>.mp hdirect
    have hon := (Bool.and_eq_true _ _ |>.mp hparts.2).2
    have hd := isDict_of_isTarget hparts.1
    refine ⟨_, hstays, ?_⟩
    split
    · rw [isTarget_movedHost hd, isEnabled_movedHost hd]
      exact ⟨hparts.1, hon⟩
    · exact ⟨hparts.1, hon⟩
  · rw [Bool.not_eq_true] at hany
    have htunnel : isTunnel c.runtime a.1 host = true := by
      rcases hasType_of_admissible hadmissible with hkind | hkind
      · have hdirect : isDirect c.runtime a.1 host = true := by
          rw [isDirect, htarget, hkind, henabled]
          rfl
        rw [List.any_eq_false] at hany
        exact absurd hdirect (hany host hhost)
      · rw [isTunnel, htarget, hkind, henabled]
        rfl
    obtain ⟨opened, _, hopened, hmem⟩ :=
      opened_mem (c := c) ha hany (List.any_eq_true.mpr ⟨host, hhost, htunnel⟩)
    have hin := isTarget_of_isTunnel hopened
    have hd := isDict_of_isTarget hin
    exact ⟨_, hmem, by rw [isTarget_toDirect hd, hin], isEnabled_toDirect hd⟩

/-- When no retired address is left. -/
theorem unadvertised_iff (hadmissible : ∀ host ∈ hosts, Admissible py known host) :
    (∀ a ∈ portsOf inbounds ids, ∀ host ∈ broughtOver c (portsOf inbounds ids) hosts,
      isTarget c.runtime a.1 host = true → isEnabled host = true → ∀ e ∈ advertised host,
        retired e → e = c.address) ↔ OnlyFormer c (portsOf inbounds ids) retired hosts := by
  constructor
  · intro h a ha host hhost hdirect e he hretired hne
    have hmem := direct_mem ha hhost hdirect
    have htarget := isTarget_of_isDirect hdirect
    have henabled : isEnabled host = true :=
      (Bool.and_eq_true _ _ |>.mp (Bool.and_eq_true _ _ |>.mp hdirect).2).2
    have hd := isDict_of_isTarget htarget
    by_cases hformer : isFormer c host = true
    · refine ⟨hformer, ?_⟩
      by_contra hprevious
      rw [if_pos hformer] at hmem
      exact hne (h a ha _ hmem (by rw [isTarget_movedHost hd, htarget])
        (by rw [isEnabled_movedHost hd, henabled]) e
        ((mem_advertised_movedHost hd hformer hne).mpr ⟨he, hprevious⟩) hretired)
    · rw [if_neg hformer] at hmem
      exact absurd (h a ha host hmem htarget henabled e he hretired) hne
  · intro h a ha host' hmem htarget henabled e he hretired
    by_contra hne
    obtain ⟨_, ⟨host, hhost, hdirect, heq⟩ | hnew⟩ :=
      enabled_broughtOver hadmissible ha hmem htarget henabled
    · have hd := isDict_of_isTarget (isTarget_of_isDirect hdirect)
      by_cases hformer : isFormer c host = true
      · rw [heq, if_pos hformer, mem_advertised_movedHost hd hformer hne] at he
        exact he.2 (h a ha host hhost hdirect e he.1 hretired hne).2
      · rw [heq, if_neg hformer] at he
        exact hformer (h a ha host hhost hdirect e he hretired hne).1
    · exact hne (hnew e he)

/-- When all hosts are accepted again. -/
theorem admissible_broughtOver_iff (hpy : Strips py) (hadmissible : ∀ host ∈ hosts, Admissible py known host)
    (hknown : ∀ a ∈ portsOf inbounds ids, a.1 ∈ known) (hruntime : runtimeRe c.runtime = true)
    (hremark : c.remark.length ≤ 8192) (hstrip : py.strip c.address = c.address)
    (hnonempty : c.address ≠ "") :
    (∀ host ∈ broughtOver c (portsOf inbounds ids) hosts, Admissible py known host) ↔
      (NeedsAddress c (portsOf inbounds ids) hosts → plainAddress c.address = true) := by
  constructor
  · rintro h ⟨a, ha, hnone | ⟨hdirect, htunnel⟩ | hmove⟩
    · have hmem : addedHost c a.1 a.2 ∈ broughtOver c (portsOf inbounds ids) hosts :=
        mem_broughtOver.mpr (Or.inr ⟨a, ha, hnone, rfl⟩)
      have hplain := (hostAddresses_single rfl rfl).mp (h _ hmem).addresses
      rwa [hstrip] at hplain
    · obtain ⟨host, _, hhost, hmem⟩ := opened_mem (c := c) ha hdirect htunnel
      have hd := isDict_of_isTarget (isTarget_of_isTunnel hhost)
      have haddress : (toDirect c a.2 host).get? "address" = some (.str c.address) := by
        simp [get?_toDirect hd]
      have hplain := (hostAddresses_single (by simp [get?_toDirect hd]) haddress).mp
        (h _ hmem).addresses
      rwa [hstrip] at hplain
    · obtain ⟨host, hhost, hmust⟩ := List.any_eq_true.mp hmove
      have hparts := Bool.and_eq_true _ _ |>.mp hmust
      have hmem := direct_mem ha hhost hparts.1
      rw [if_pos hparts.2] at hmem
      have hread : (movedHost c a.2 host).get? "address" = some (.str c.address) := by
        simp [get?_movedHost (isDict_of_isTarget (isTarget_of_isDirect hparts.1))]
      obtain ⟨_, _, _, hprimary⟩ := hostAddresses_ok_iff.mp (h _ hmem).addresses
      have hplain := hprimary c.address (by rw [Doc.getD, hread]; rfl)
      rw [hstrip] at hplain
      exact hplain.resolve_left hnonempty
  · intro h host' hmem
    rcases mem_broughtOver.mp hmem with ⟨j, host, hj, heq⟩ | ⟨a, ha, hnone, heq⟩
    · have hin := List.mem_of_getElem? hj
      rw [heq]
      by_cases htarget : ∃ a ∈ portsOf inbounds ids, isTarget c.runtime a.1 host = true
      · obtain ⟨a, ha, hhost⟩ := htarget
        rw [brought_of_mem ha hhost]
        rcases cutHost_cases a.2 hosts (hosts.take j) hhost with
          ⟨hmove, hcut⟩ | ⟨_, _, hcut⟩ | ⟨htunnel, hdirect, _, hcut⟩ | ⟨_, _, hcut⟩
        · have hplain := h ⟨a, ha, Or.inr (Or.inr (List.any_eq_true.mpr ⟨host, hin, hmove⟩))⟩
          rw [hcut]
          exact admissible_movedHost (hadmissible host hin) (by rw [hstrip, hplain])
        · rw [hcut]
          exact hadmissible host hin
        · have hplain := h ⟨a, ha, Or.inr (Or.inl ⟨hdirect,
            List.any_eq_true.mpr ⟨host, hin, htunnel⟩⟩)⟩
          rw [hcut]
          exact admissible_toDirect (hadmissible host hin) hremark (by rw [hstrip, hplain])
        · rw [hcut]
          exact admissible_disabled (hadmissible host hin)
      · rw [brought_of_foreign fun a ha => by
          cases hvalue : isTarget c.runtime a.1 host with
          | false => rfl
          | true => exact absurd ⟨a, ha, hvalue⟩ htarget]
        exact hadmissible host hin
    · have hplain := h ⟨a, ha, Or.inl hnone⟩
      rw [heq]
      exact admissible_addedHost hpy (hknown a ha) hruntime hremark (by rw [hstrip, hplain])

/-- The hosts that a test for other inbounds keeps are the ones that were there. -/
theorem filter_broughtOver (q : Doc → Bool)
    (hq : ∀ a ∈ portsOf inbounds ids, ∀ host, isTarget c.runtime a.1 host = true → q host = false) :
    (broughtOver c (portsOf inbounds ids) hosts).filter q = hosts.filter q := by
  have hedit : ∀ before host, q (brought c (portsOf inbounds ids) hosts before host) = q host ∧
      (q host = true → brought c (portsOf inbounds ids) hosts before host = host) := by
    intro before host
    by_cases htarget : ∃ a ∈ portsOf inbounds ids, isTarget c.runtime a.1 host = true
    · obtain ⟨a, ha, hhost⟩ := htarget
      have hfalse := hq a ha host hhost
      rw [hfalse, hq a ha _ (by rw [isTarget_brought, hhost])]
      exact ⟨rfl, fun hcontra => absurd hcontra Bool.false_ne_true⟩
    · rw [brought_of_foreign fun a ha => by
        cases hvalue : isTarget c.runtime a.1 host with
        | false => rfl
        | true => exact absurd ⟨a, ha, hvalue⟩ htarget]
      exact ⟨rfl, fun _ => rfl⟩
  have hadded : (added c (portsOf inbounds ids) hosts).filter q = [] := by
    rw [List.filter_eq_nil_iff]
    intro host hmem
    unfold added addedFor at hmem
    obtain ⟨a, ha, hhost⟩ := List.mem_flatMap.mp hmem
    split at hhost
    · cases hhost
    · rw [List.mem_singleton.mp hhost, hq a ha _ (by simp [isTarget_addedHost])]
      exact Bool.false_ne_true
  have hpass : ∀ (l : List Doc) (f : ℕ → Doc → Doc),
      (∀ j host, q (f j host) = q host ∧ (q host = true → f j host = host)) →
        (l.mapIdx f).filter q = l.filter q := by
    intro l
    induction l with
    | nil => intro f _; rfl
    | cons host l ih =>
        intro f hf
        rw [List.mapIdx_cons, List.filter_cons, List.filter_cons, (hf 0 host).1,
          ih _ fun j host => hf (j + 1) host]
        split
        · rename_i hvalue
          rw [(hf 0 host).2 hvalue]
        · rfl
  unfold broughtOver
  rw [List.filter_append, hadded, List.append_nil]
  exact hpass hosts _ fun j host => hedit (hosts.take j) host

end Whole

/-! ## The cutover as a whole -/

/-- A data address in the records of the retired installations of a Node. -/
def CutoverStore.RetiredAddress (s : CutoverStore) (node : NodeId) (e : String) : Prop :=
  ∃ r ∈ s.installations, r.nodeId = node ∧ 0 < r.retiredAt ∧ r.dataAddress = some e

/-- The saved hosts are accepted by {lit}`save_section`. -/
def HostsAccepted (py : Builtins) (cfg : Config) (s : CutoverStore) : Prop :=
  ∃ t, saveSection py cfg s.core .hosts (.list s.core.hosts) = .ok t

/-- What the cutover of a Node from one store to another is for. -/
structure Retires (py : Builtins) (cfg : Config) (s t : CutoverStore) (node : NodeId)
    (address : String) : Prop where
  direct : ∀ id ∈ s.assigned node, ∀ host ∈ t.core.hosts, isTarget node.runtime id host = true →
    isEnabled host = true → hasType "direct" host = true
  unadvertised : ∀ id ∈ s.assigned node, ∀ host ∈ t.core.hosts,
    isTarget node.runtime id host = true → isEnabled host = true → ∀ e ∈ advertised host,
      s.RetiredAddress node e → e = address
  kept : ∀ id ∈ s.assigned node,
    (∃ host ∈ s.core.hosts, isTarget node.runtime id host = true ∧ isEnabled host = true) →
      ∃ host ∈ t.core.hosts, isTarget node.runtime id host = true ∧ isEnabled host = true
  ports : ∀ id ∈ s.assigned node, ∀ v, t.core.inbounds.get? id = some v →
    tunnelPortOf node.runtime v = none
  others : t.core.hosts.filter (fun host => !(s.assigned node).any (isTarget node.runtime · host)) =
    s.core.hosts.filter (fun host => !(s.assigned node).any (isTarget node.runtime · host))
  accepted : HostsAccepted py cfg t
  settled : directHostCutover py t node =
    .ok { hosts := t.core.hosts, inboundChanges := [], changes := [] } ∧ cutover py t node = .ok t

section Cutover

variable {py : Builtins} {cfg : Config} {s t : CutoverStore} {node : NodeId}
  {record : AddressedNode}

/-- The port of an assigned inbound. -/
theorem exists_assignedPort (h : cutover py s node = .ok t) {id : ℕ} (hid : id ∈ s.assigned node) :
    ∃ port, (id, port) ∈ s.assignedPorts node := by
  obtain ⟨_, _, _, _, _, _, hsome, _⟩ := cutover_ok h
  obtain ⟨v, hv⟩ := Option.isSome_iff_exists.mp (hsome id hid)
  exact ⟨v.port, mem_portsOf.mpr ⟨hid, v, hv, rfl⟩⟩

/-- The hosts after the cutover. -/
theorem cutover_hosts (hrecord : s.nodes.get? node = some record) (h : cutover py s node = .ok t) :
    t.core.hosts = broughtOver (s.handover py node record) (s.assignedPorts node) s.core.hosts := by
  obtain ⟨_, record', _, _, hrecord', _, _, hhosts, _⟩ := cutover_ok h
  rw [hrecord] at hrecord'
  obtain rfl := Option.some.inj hrecord'
  exact hhosts

/-- When enabled hosts list no retired address. -/
theorem cutover_unadvertised_iff (hrecord : s.nodes.get? node = some record)
    (hadmissible : ∀ host ∈ s.core.hosts,
      Admissible py (s.core.inbounds.rows.map Prod.fst) host)
    (h : cutover py s node = .ok t) :
    (∀ id ∈ s.assigned node, ∀ host ∈ t.core.hosts, isTarget node.runtime id host = true →
        isEnabled host = true → ∀ e ∈ advertised host,
          s.RetiredAddress node e → e = py.strip record.dataAddress) ↔
      OnlyFormer (s.handover py node record) (s.assignedPorts node) (s.RetiredAddress node)
        s.core.hosts := by
  rw [cutover_hosts hrecord h]
  refine Iff.trans ?_ (unadvertised_iff hadmissible)
  constructor
  · exact fun hall a ha => hall a.1 (mem_portsOf.mp ha).1
  · intro hall id hid
    obtain ⟨port, hmem⟩ := exists_assignedPort h hid
    exact hall (id, port) hmem

/-- The remark of a new host is short, because the name of a Node is. -/
theorem length_handover_remark (s : CutoverStore) (node : NodeId) (record : AddressedNode) :
    (s.handover py node record).remark.length ≤ 8192 := by
  change (record.name.text ++ " · Direct").length ≤ 8192
  have hname := record.name.length_le
  have hsuffix : " · Direct".length = 9 := by decide
  rw [String.length_append]
  omega

/-- When the section with the new hosts is accepted again. -/
theorem cutover_accepted_iff (hpy : Strips py) (hrecord : s.nodes.get? node = some record)
    (haccepted : HostsAccepted py cfg s) (h : cutover py s node = .ok t) :
    HostsAccepted py cfg t ↔
      (NeedsAddress (s.handover py node record) (s.assignedPorts node) s.core.hosts →
        plainAddress (py.strip record.dataAddress) = true) ∧
      (py.dumps (.list (broughtOver (s.handover py node record) (s.assignedPorts node)
        s.core.hosts))).length ≤ 500000 := by
  obtain ⟨plan, record', _, ht, hrecord', haddress, _⟩ := cutover_ok h
  rw [hrecord] at hrecord'
  obtain rfl := Option.some.inj hrecord'
  obtain ⟨hwrites, _, hadmissible⟩ := saveSection_hosts_iff.mp haccepted
  have hknown : t.core.inbounds.rows.map Prod.fst = s.core.inbounds.rows.map Prod.fst := by
    rw [ht]
    exact keys_carryOut s plan
  have hids : ∀ a ∈ portsOf s.core.inbounds (s.assigned node),
      a.1 ∈ s.core.inbounds.rows.map Prod.fst := by
    intro a ha
    obtain ⟨_, v, hv, _⟩ := mem_portsOf.mp ha
    exact List.mem_map.mpr ⟨(a.1, v), Table.get?_eq_some_iff.mp hv, rfl⟩
  have hadmitted := admissible_broughtOver_iff (c := s.handover py node record) hpy hadmissible hids
    node.valid (length_handover_remark s node record) (hpy.again _) haddress
  unfold HostsAccepted
  rw [saveSection_hosts_iff, hknown, cutover_hosts hrecord h]
  constructor
  · rintro ⟨_, hsize, hall⟩
    exact ⟨hadmitted.mp hall, hsize⟩
  · rintro ⟨hplain, hsize⟩
    exact ⟨hwrites, hsize, hadmitted.mpr hplain⟩

/-- Enabled hosts of the Node are direct, and an inbound that had an enabled host keeps one. -/
theorem cutover_enabled (hrecord : s.nodes.get? node = some record)
    (hadmissible : ∀ host ∈ s.core.hosts,
      Admissible py (s.core.inbounds.rows.map Prod.fst) host)
    (h : cutover py s node = .ok t) {id : ℕ} (hid : id ∈ s.assigned node) :
    (∀ host ∈ t.core.hosts, isTarget node.runtime id host = true → isEnabled host = true →
        hasType "direct" host = true) ∧
      ((∃ host ∈ s.core.hosts, isTarget node.runtime id host = true ∧ isEnabled host = true) →
        ∃ host ∈ t.core.hosts, isTarget node.runtime id host = true ∧ isEnabled host = true) := by
  obtain ⟨port, hin⟩ := exists_assignedPort h hid
  rw [cutover_hosts hrecord h]
  constructor
  · intro host hmem htarget henabled
    exact (enabled_broughtOver hadmissible hin hmem htarget henabled).1
  · rintro ⟨host, hmem, htarget, henabled⟩
    exact enabled_kept hin (hadmissible host hmem) hmem htarget henabled

/-- The tunnel ports of the Node are given up. -/
theorem cutover_ports (h : cutover py s node = .ok t) {id : ℕ} (hid : id ∈ s.assigned node)
    {v : Inbound} (hv : t.core.inbounds.get? id = some v) : tunnelPortOf node.runtime v = none := by
  obtain ⟨plan, _, _, ht, _, _, hsome, _, hchanges⟩ := cutover_ok h
  obtain ⟨w, hw⟩ := Option.isSome_iff_exists.mp (hsome id hid)
  obtain ⟨x, hx, _, hnone⟩ := get?_carryOut (s.nodup_assigned node) hchanges hid hw
  rw [ht, hx] at hv
  rw [← Option.some.inj hv]
  exact hnone

end Cutover

/-- When the retired addresses are gone and the section is accepted again: every enabled host
lists a retired address only as the last one and in the first place, the new address is plain
where it is needed, and the section stays within its size. -/
theorem cutover_retires_iff {py : Builtins} (hpy : Strips py) {cfg : Config} {s t : CutoverStore}
    {node : NodeId} {record : AddressedNode} (hrecord : s.nodes.get? node = some record)
    (haccepted : HostsAccepted py cfg s) (h : cutover py s node = .ok t) :
    Retires py cfg s t node (py.strip record.dataAddress) ↔
      OnlyFormer (s.handover py node record) (s.assignedPorts node) (s.RetiredAddress node)
          s.core.hosts ∧
        (NeedsAddress (s.handover py node record) (s.assignedPorts node) s.core.hosts →
          plainAddress (py.strip record.dataAddress) = true) ∧
        (py.dumps (.list (broughtOver (s.handover py node record) (s.assignedPorts node)
          s.core.hosts))).length ≤ 500000 := by
  obtain ⟨_, _, hadmissible⟩ := saveSection_hosts_iff.mp haccepted
  have hunadvertised := cutover_unadvertised_iff hrecord hadmissible h
  have hsection := cutover_accepted_iff hpy hrecord haccepted h
  constructor
  · intro hretires
    exact ⟨hunadvertised.mp hretires.unadvertised, hsection.mp hretires.accepted⟩
  · rintro ⟨honly, hrest⟩
    refine {
      direct := fun id hid => (cutover_enabled hrecord hadmissible h hid).1
      unadvertised := hunadvertised.mpr honly
      kept := fun id hid => (cutover_enabled hrecord hadmissible h hid).2
      ports := fun id hid v hv => cutover_ports h hid hv
      others := ?_
      accepted := hsection.mpr hrest
      settled := ?_ }
    · rw [cutover_hosts hrecord h]
      refine filter_broughtOver _ fun a ha host htarget => ?_
      rw [Bool.not_eq_false', List.any_eq_true]
      exact ⟨a.1, (mem_portsOf.mp ha).1, htarget⟩
    · have hagain := cutover_again h
      refine ⟨hagain, ?_⟩
      rw [cutover, hagain]
      rfl

/-! ## Replacements -/

/-- The part of {lit}`_replace_locked` that the cutover reads: the installation in use is
retired with the address of the Node, and the Node gets a new one. -/
def CutoverStore.replaced (s : CutoverStore) (node : NodeId) (now : ℕ) (address : String) :
    CutoverStore :=
  { s with
    installations := (s.installations.map fun r =>
        if r.nodeId = node ∧ r.retiredAt = 0 then
          { r with
            retiredAt := now
            dataAddress := (s.nodes.get? node).map AddressedNode.dataAddress }
        else r) ++ [{ nodeId := node, retiredAt := 0, dataAddress := none }]
    nodes := s.nodes.update node fun r => { r with dataAddress := address } }

/-- A history of replacements, each with its time and the new address. -/
def CutoverStore.replacedAll (s : CutoverStore) (node : NodeId) (history : List (ℕ × String)) :
    CutoverStore :=
  history.foldl (fun s r => s.replaced node r.1 r.2) s

/-- A replacement retires one address more. -/
theorem retiredAddress_replaced {s : CutoverStore} {node : NodeId} {record : AddressedNode}
    (hrecord : s.nodes.get? node = some record)
    (hactive : ∃ r ∈ s.installations, r.nodeId = node ∧ r.retiredAt = 0) {now : ℕ} (hnow : 0 < now)
    (address e : String) :
    (s.replaced node now address).RetiredAddress node e ↔
      s.RetiredAddress node e ∨ e = record.dataAddress := by
  unfold CutoverStore.RetiredAddress CutoverStore.replaced
  dsimp only
  rw [hrecord, Option.map_some]
  constructor
  · rintro ⟨r, hmem, hnode, hretired, haddress⟩
    rcases List.mem_append.mp hmem with hold | hnew
    · obtain ⟨r', hr', rfl⟩ := List.mem_map.mp hold
      by_cases hin : r'.nodeId = node ∧ r'.retiredAt = 0
      · rw [if_pos hin] at haddress
        exact Or.inr (Option.some.inj haddress).symm
      · rw [if_neg hin] at hnode hretired haddress
        exact Or.inl ⟨r', hr', hnode, hretired, haddress⟩
    · rw [List.mem_singleton.mp hnew] at hretired
      exact absurd hretired (Nat.lt_irrefl 0)
  · rintro (⟨r, hr, hnode, hretired, haddress⟩ | rfl)
    · refine ⟨r, List.mem_append_left _ (List.mem_map.mpr ⟨r, hr, ?_⟩), hnode, hretired, haddress⟩
      rw [if_neg fun hin => by omega]
    · obtain ⟨r, hr, hin⟩ := hactive
      refine ⟨_, List.mem_append_left _ (List.mem_map.mpr ⟨r, hr, rfl⟩), ?_⟩
      rw [if_pos hin]
      exact ⟨hin.1, hnow, rfl⟩

/-- After every history of replacements the addresses before the current one are retired. -/
theorem retiredAddress_replacedAll {s : CutoverStore} {node : NodeId} {record : AddressedNode}
    (hrecord : s.nodes.get? node = some record)
    (hactive : ∃ r ∈ s.installations, r.nodeId = node ∧ r.retiredAt = 0)
    {history : List (ℕ × String)} (hnow : ∀ r ∈ history, 0 < r.1) (e : String) :
    (s.replacedAll node history).RetiredAddress node e ↔
      s.RetiredAddress node e ∨ e ∈ (record.dataAddress :: history.map Prod.snd).dropLast := by
  induction history generalizing s record with
  | nil => simp [CutoverStore.replacedAll]
  | cons r history ih =>
      rw [List.forall_mem_cons] at hnow
      have hnext : (s.replaced node r.1 r.2).nodes.get? node =
          some { record with dataAddress := r.2 } := by
        change (s.nodes.update node _).get? node = _
        rw [Table.get?_update, if_pos rfl, hrecord, Option.map_some]
      have hin : ∃ r' ∈ (s.replaced node r.1 r.2).installations,
          r'.nodeId = node ∧ r'.retiredAt = 0 :=
        ⟨_, List.mem_append_right _ List.mem_cons_self, rfl, rfl⟩
      change ((s.replaced node r.1 r.2).replacedAll node history).RetiredAddress node e ↔ _
      rw [ih hnext hin hnow.2, retiredAddress_replaced hrecord hactive hnow.1, or_assoc]
      rw [List.map_cons, List.dropLast_cons_of_ne_nil (List.cons_ne_nil _ _), List.mem_cons]

/-! ## A Node that was replaced -/

/-- A list without matches at its ends stays as it is. -/
theorem trim_trim {α : Type} (p : α → Bool) (l : List α) :
    (((l.dropWhile p).rdropWhile p).dropWhile p).rdropWhile p = (l.dropWhile p).rdropWhile p := by
  obtain ⟨rest, hrest⟩ := List.rdropWhile_prefix p (l.dropWhile p)
  have hstart : ((l.dropWhile p).rdropWhile p).dropWhile p = (l.dropWhile p).rdropWhile p := by
    cases hvalue : (l.dropWhile p).rdropWhile p with
    | nil => rfl
    | cons a others =>
        rw [hvalue, List.cons_append] at hrest
        have hfirst : p a = false := by
          have hnot := List.head?_dropWhile_not p l
          rw [← hrest] at hnot
          simpa using hnot
        rw [List.dropWhile_cons, hfirst]
        rfl
  rw [hstart, List.rdropWhile_idempotent]

/-- What the removal of blanks does to an ASCII text. -/
theorem ascii_strips : Strips .ascii where
  empty := rfl
  again := by
    intro s
    have htrim := trim_trim (fun ch : Char => decide (ch = ' ')) s.toList
    simp only [List.rdropWhile] at htrim
    simp only [Builtins.ascii, String.toList_ofList]
    rw [htrim]

/-- Whether an address is retired can be decided. -/
instance decidableRetiredAddress (s : CutoverStore) (node : NodeId) :
    DecidablePred (s.RetiredAddress node) := fun e =>
  inferInstanceAs (Decidable (∃ r ∈ s.installations,
    r.nodeId = node ∧ 0 < r.retiredAt ∧ r.dataAddress = some e))

/-- Whether a section lists former addresses in the way the plan expects can be decided. -/
instance decidableOnlyFormer (c : Handover) (ports : List (ℕ × Port)) (retired : String → Prop)
    [DecidablePred retired] (hosts : List Doc) : Decidable (OnlyFormer c ports retired hosts) :=
  inferInstanceAs (Decidable (∀ a ∈ ports, ∀ host ∈ hosts, isDirect c.runtime a.1 host = true →
    ∀ e ∈ advertised host, retired e → e ≠ c.address → isFormer c host = true ∧ e = c.previous))

/-- The id of a Node. -/
def parisId : NodeId where
  text := "paris"
  valid := by decide +kernel

/-- The record of the Node at an address. -/
def parisAt (address : String) : AddressedNode where
  name := { text := "Paris", length_le := by decide +kernel }
  dataAddress := address

/-- A Node that serves one inbound, with one host at its address. -/
def parisStore : CutoverStore where
  core := { CoreStore.fresh with
    inbounds := Table.empty.insert 1
      { remark := "", protocol := .vless, listen := .str "0.0.0.0", port := ⟨443, https_inRange⟩
        enable := true, tag := "in", settings := .dict [], streamSettings := .dict []
        sniffing := .dict [], panelMeta := .dict [] }
    hosts := [.dict [("inboundId", .int 1), ("runtime", .str "node:paris"),
      ("address", .str "192.0.2.1"), ("port", .int 443), ("endpointType", .str "direct"),
      ("enable", .bool true)]] }
  nodes := Table.empty.insert parisId (parisAt "192.0.2.1")
  assignments := Table.empty.insert (parisId, 1) ()
  installations := [{ nodeId := parisId, retiredAt := 0, dataAddress := none }]

/-- The configuration with writes. -/
def writableConfig : Config where
  writesEnabled := true
  protectedPorts := []

/-- What ended well has a result. -/
theorem exists_of_isOk {ε α : Type} {x : Except ε α} (h : x.isOk = true) : ∃ a, x = .ok a := by
  cases x with
  | error e => cases h
  | ok a => exact ⟨a, rfl⟩

/-- A single replacement takes over everything. -/
theorem cutover_retires_replaced :
    (parisStore.replaced parisId 10 "192.0.2.2").RetiredAddress parisId "192.0.2.1" ∧
      ∃ t, cutover .ascii (parisStore.replaced parisId 10 "192.0.2.2") parisId = .ok t ∧
        Retires .ascii writableConfig (parisStore.replaced parisId 10 "192.0.2.2") t parisId
          (Builtins.ascii.strip (parisAt "192.0.2.2").dataAddress) := by
  refine ⟨by decide +kernel, ?_⟩
  obtain ⟨t, ht⟩ := exists_of_isOk (x := cutover .ascii
    (parisStore.replaced parisId 10 "192.0.2.2") parisId) (by decide +kernel)
  have haccepted : HostsAccepted .ascii writableConfig
      (parisStore.replaced parisId 10 "192.0.2.2") := exists_of_isOk (by decide +kernel)
  have hrecord : (parisStore.replaced parisId 10 "192.0.2.2").nodes.get? parisId =
      some (parisAt "192.0.2.2") := rfl
  refine ⟨t, ht, (cutover_retires_iff ascii_strips hrecord haccepted ht).mpr ⟨?_, ?_, ?_⟩⟩
  · decide +kernel
  · exact fun _ => by decide +kernel
  · decide +kernel

/-- A replacement that was itself replaced before the cutover leaves the first address in use:
the host of the Node still names the server that was retired first. -/
theorem older_address_stays :
    ∃ t, HostsAccepted .ascii writableConfig
        (parisStore.replacedAll parisId [(10, "192.0.2.2"), (20, "192.0.2.3")]) ∧
      cutover .ascii (parisStore.replacedAll parisId [(10, "192.0.2.2"), (20, "192.0.2.3")])
        parisId = .ok t ∧
      ¬ Retires .ascii writableConfig
        (parisStore.replacedAll parisId [(10, "192.0.2.2"), (20, "192.0.2.3")]) t parisId
          "192.0.2.3" := by
  obtain ⟨t, ht⟩ := exists_of_isOk (x := cutover .ascii
    (parisStore.replacedAll parisId [(10, "192.0.2.2"), (20, "192.0.2.3")]) parisId)
    (by decide +kernel)
  refine ⟨t, exists_of_isOk (by decide +kernel), ht, fun hretires => ?_⟩
  obtain ⟨_, record, _, _, hrecord, _, _, hhosts, _⟩ := cutover_ok ht
  have hsame : (parisStore.replacedAll parisId [(10, "192.0.2.2"), (20, "192.0.2.3")]).nodes.get?
      parisId = some (parisAt "192.0.2.3") := rfl
  rw [hsame] at hrecord
  obtain rfl := Option.some.inj hrecord
  have hstays : (t.core.hosts.any fun host => isTarget parisId.runtime 1 host &&
      (isEnabled host && decide ("192.0.2.1" ∈ advertised host))) = true := by
    rw [hhosts]
    decide +kernel
  obtain ⟨host, hmem, hhost⟩ := List.any_eq_true.mp hstays
  rw [Bool.and_eq_true, Bool.and_eq_true, decide_eq_true_iff] at hhost
  have hnew := hretires.unadvertised 1 (by decide +kernel) host hmem hhost.1 hhost.2.1 "192.0.2.1"
    hhost.2.2 (by decide +kernel)
  exact absurd hnew (by decide)

end Deployment
end DarkXray
