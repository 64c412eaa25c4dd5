import DarkXray.Core.Sections

/-!
# What the hosts section admits

{lit}`save_section` stores a host in a normal form.  Whether it accepts the host at all
depends on the fields as they are given, each by itself except for two of the switches.

Main results:

- Theorem {lit}`checkHost_ok_iff`: the hosts that are accepted.
- Theorem {lit}`saveSection_hosts_iff`: the sections that are accepted.
- Theorem {lit}`Admissible.edit`: an edit of some fields of an accepted host is accepted if
  these fields are.
-/

namespace DarkXray
namespace Core

open Library

/-- The conditions on the fields of a host. -/
structure Admissible (py : Builtins) (known : List ℕ) (host : Doc) : Prop where
  inbound : (host.isDict && ((host.get? "inboundId").bind Doc.int?).elim false fun n =>
    known.any fun i => (i : ℤ) = n) = true
  addresses : ∃ address rest, hostAddresses py host = .ok (address :: rest)
  port : ((host.get? "port").bind Port.ofDoc?).isSome = true
  enable : ((host.get? "enable").elim true fun d => d.bool?.isSome) = true
  runtime : ∃ runtime, (if host.truthyAt "runtime" then (host.get? "runtime").bind Doc.str?
    else some "local").filter runtimeRe = some runtime
  endpointType : ∃ kind, choiceAt host "endpointType" "direct" ["direct", "tunnel"]
    "Host endpointType must be direct or tunnel" = .ok kind
  texts : ∀ key ∈ hostTexts,
    ((host.get? key).elim true fun d => d.str?.elim false fun s => s.length ≤ 8192) = true
  security : ∃ security, choiceAt host "security" "same" ["same", "tls", "none"]
    "Host security override must be same, tls or none" = .ok security
  switches : ∀ key ∈ hostSwitches, ((host.get? key).elim true fun d => d.bool?.isSome) = true
  apart : (!(host.truthyAt "overrideSniFromAddress" && host.truthyAt "keepSniBlank")) = true
  excluded : ((host.getD "excludeFromSubTypes" (.list [])).list?.elim false fun items =>
    items.length ≤ 3 && items.all (fun x => x.str? ∈ ["raw", "json", "clash"].map some) &&
      decide (items.map Doc.str?).Nodup) = true
  ipVersion : textAt host "mihomoIpVersion" "" ∈
    ["", "dual", "ipv4", "ipv6", "ipv4-prefer", "ipv6-prefer"].map some
  mask : ∃ mask, finalMask py host = .ok mask
  alpn : ∃ alpn, hostAlpn py host = .ok alpn

section

variable {py : Builtins} {host host' : Doc}

/-- A choice depends on its own field only. -/
theorem choiceAt_congr {key : String} (h : host'.get? key = host.get? key) (default : String)
    (choices : List String) (message : String) :
    choiceAt host' key default choices message = choiceAt host key default choices message := by
  unfold choiceAt Doc.truthyAt
  rw [h]

/-- A text depends on its own field only. -/
theorem textAt_congr {key : String} (h : host'.get? key = host.get? key) (default : String) :
    textAt host' key default = textAt host key default := by
  unfold textAt Doc.getD
  rw [h]

theorem finalMask_congr (h : host'.get? "finalMask" = host.get? "finalMask") :
    finalMask py host' = finalMask py host := by
  unfold finalMask
  rw [textAt_congr h]

theorem hostAlpn_congr (h : host'.get? "alpn" = host.get? "alpn") :
    hostAlpn py host' = hostAlpn py host := by
  unfold hostAlpn
  rw [textAt_congr h]

/-- Storing the addresses changes no other field. -/
theorem get?_storedAddresses (p : Prop) [Decidable p] (d : Doc) {key : String}
    (hne : "addresses" ≠ key) :
    (if p then host.set "addresses" d else host.erase "addresses").get? key = host.get? key := by
  split
  · exact Doc.get?_set_of_ne host hne _
  · rw [Doc.get?_erase, if_neg hne]

/-- The defaults of the switches change no other field. -/
theorem get?_storedSwitches {key : String} (hkey : key ∉ hostSwitches) :
    (hostSwitches.foldl (fun h key => h.setDefault key (.bool false)) host).get? key =
      host.get? key := by
  simp only [hostSwitches, List.mem_cons, List.not_mem_nil, or_false, not_or] at hkey
  simp only [hostSwitches, List.foldl_cons, List.foldl_nil]
  rw [Doc.get?_setDefault_of_ne _ (Ne.symm hkey.2.2), Doc.get?_setDefault_of_ne _ (Ne.symm hkey.2.1),
    Doc.get?_setDefault_of_ne _ (Ne.symm hkey.1)]

/-- A default of false changes no truth value. -/
theorem truthyAt_setDefault (key key' : String) :
    (host.setDefault key (.bool false)).truthyAt key' = host.truthyAt key' := by
  by_cases hne : key = key'
  · subst hne
    unfold Doc.setDefault
    by_cases hsome : (host.get? key).isSome = true
    · rw [if_pos hsome]
    · rw [if_neg hsome]
      unfold Doc.truthyAt
      by_cases hd : host.isDict = true
      · rw [Doc.get?_set hd, if_pos rfl, Option.not_isSome_iff_eq_none.mp hsome]
        rfl
      · cases host with
        | atom a => rfl
        | list items => rfl
        | dict fields => exact absurd rfl hd
  · unfold Doc.truthyAt
    rw [Doc.get?_setDefault_of_ne host hne]

/-- Storing the defaults of the switches changes no switch. -/
theorem truthyAt_storedSwitches (key : String) :
    (hostSwitches.foldl (fun h key => h.setDefault key (.bool false)) host).truthyAt key =
      host.truthyAt key := by
  simp only [hostSwitches, List.foldl_cons, List.foldl_nil, truthyAt_setDefault]

theorem truthyAt_congr {key : String} (h : host'.get? key = host.get? key) :
    host'.truthyAt key = host.truthyAt key := by
  unfold Doc.truthyAt
  rw [h]

/-- The fields that are stored before the texts are checked. -/
theorem get?_text {key : String} (hkey : key ∈ hostTexts) (p : Prop) [Decidable p]
    (d address runtime kind : Doc) :
    ((((if p then (host.set "address" address).set "addresses" d
      else (host.set "address" address).erase "addresses").set "runtime" runtime).set
        "endpointType" kind).get? key) = host.get? key := by
  have hne : ∀ key ∈ hostTexts, "endpointType" ≠ key ∧ "runtime" ≠ key ∧ "addresses" ≠ key ∧
      "address" ≠ key := by
    decide
  have hkeys := hne key hkey
  rw [Doc.get?_set_of_ne _ hkeys.1, Doc.get?_set_of_ne _ hkeys.2.1,
    get?_storedAddresses _ _ hkeys.2.2.1, Doc.get?_set_of_ne _ hkeys.2.2.2]

/-- The fields that are stored before the switches are checked. -/
theorem get?_switch {key : String} (hkey : key ∈ hostSwitches) (p : Prop) [Decidable p]
    (d address runtime kind security : Doc) :
    (((((if p then (host.set "address" address).set "addresses" d
      else (host.set "address" address).erase "addresses").set "runtime" runtime).set
        "endpointType" kind).set "security" security).get? key) = host.get? key := by
  have hne : ∀ key ∈ hostSwitches, "security" ≠ key ∧ "endpointType" ≠ key ∧ "runtime" ≠ key ∧
      "addresses" ≠ key ∧ "address" ≠ key := by
    decide
  have hkeys := hne key hkey
  rw [Doc.get?_set_of_ne _ hkeys.1, Doc.get?_set_of_ne _ hkeys.2.1,
    Doc.get?_set_of_ne _ hkeys.2.2.1, get?_storedAddresses _ _ hkeys.2.2.2.1,
    Doc.get?_set_of_ne _ hkeys.2.2.2.2]

/-- The hosts that are accepted. -/
theorem checkHost_ok_iff {known : List ℕ} :
    (∃ stored, checkHost py known host = .ok stored) ↔ Admissible py known host := by
  constructor
  · rintro ⟨stored, h⟩
    simp only [checkHost, except_bind_ok_iff, check_ok_iff, insist_ok_iff, except_pure_ok_iff,
      except_forM_ok_iff, truthyAt_storedSwitches] at h
    obtain ⟨_, hid, addresses, haddresses, address, hhead, _, hport, _, henable, runtime, hruntime,
      kind, hkind, _, htexts, security, hsecurity, _, hswitches, _, hapart, _, hexcluded, _, hip,
      mask, hmask, alpn, halpn, -⟩ := h
    obtain ⟨rest, rfl⟩ : ∃ rest, addresses = address :: rest := by
      cases addresses with
      | nil => cases hhead
      | cons first rest => exact ⟨rest, by rw [Option.some.inj hhead]⟩
    simp (disch := decide) only [Doc.get?_set_of_ne, get?_storedAddresses, get?_storedSwitches,
      Doc.truthyAt, Doc.getD, choiceAt, textAt, finalMask, hostAlpn]
      at hport henable hruntime hkind hsecurity hapart hexcluded hip hmask halpn
    exact {
      inbound := hid
      addresses := ⟨address, rest, haddresses⟩
      port := hport
      enable := henable
      runtime := ⟨runtime, hruntime⟩
      endpointType := ⟨kind, hkind⟩
      texts := fun key hkey => by
        have htext := htexts key hkey
        rwa [get?_text hkey] at htext
      security := ⟨security, hsecurity⟩
      switches := fun key hkey => by
        have hswitch := hswitches key hkey
        rwa [get?_switch hkey] at hswitch
      apart := hapart
      excluded := hexcluded
      ipVersion := of_decide_eq_true hip
      mask := ⟨mask, hmask⟩
      alpn := ⟨alpn, halpn⟩ }
  · intro h
    obtain ⟨address, rest, haddresses⟩ := h.addresses
    obtain ⟨runtime, hruntime⟩ := h.runtime
    obtain ⟨kind, hkind⟩ := h.endpointType
    obtain ⟨security, hsecurity⟩ := h.security
    obtain ⟨mask, hmask⟩ := h.mask
    obtain ⟨alpn, halpn⟩ := h.alpn
    simp only [checkHost, except_bind_ok_iff, check_ok_iff, insist_ok_iff, except_pure_ok_iff,
      except_forM_ok_iff, truthyAt_storedSwitches]
    refine ⟨_, (), h.inbound, _, haddresses, address, rfl, (), ?portOk, (), ?enableOk, runtime,
      ?runtimeOk, kind, ?kindOk, (), ?textsOk, security, ?securityOk, (), ?switchesOk, (), ?apartOk, (),
      ?excludedOk, (), ?ipVersionOk, mask, ?maskOk, alpn, ?alpnOk, rfl⟩
    case textsOk =>
      intro key hkey
      rw [get?_text hkey]
      exact h.texts key hkey
    case switchesOk =>
      intro key hkey
      rw [get?_switch hkey]
      exact h.switches key hkey
    all_goals
      simp (disch := decide) only [Doc.get?_set_of_ne, get?_storedAddresses, get?_storedSwitches,
        Doc.truthyAt, Doc.getD, choiceAt, textAt, finalMask, hostAlpn]
    case portOk => exact h.port
    case enableOk => exact h.enable
    case runtimeOk => exact hruntime
    case kindOk => exact hkind
    case securityOk => exact hsecurity
    case apartOk => exact h.apart
    case excludedOk => exact h.excluded
    case ipVersionOk => exact decide_eq_true h.ipVersion
    case maskOk => exact hmask
    case alpnOk => exact halpn

/-- The fields of a host that a handover does not write. -/
def keptFields : List String :=
  ["inboundId", "runtime", "sni", "host", "path", "alpn", "fingerprint", "security", "finalMask",
    "mihomoIpVersion", "allowInsecure", "overrideSniFromAddress", "keepSniBlank",
    "excludeFromSubTypes"]

/-- An edit of the other fields is accepted if these are. -/
theorem Admissible.edit {known : List ℕ} (h : Admissible py known host)
    (hdict : host'.isDict = true)
    (hkept : ∀ key ∈ keptFields, host'.get? key = host.get? key)
    (haddresses : ∃ address rest, hostAddresses py host' = .ok (address :: rest))
    (hport : ((host'.get? "port").bind Port.ofDoc?).isSome = true)
    (henable : ((host'.get? "enable").elim true fun d => d.bool?.isSome) = true)
    (hkind : ∃ kind, choiceAt host' "endpointType" "direct" ["direct", "tunnel"]
      "Host endpointType must be direct or tunnel" = .ok kind)
    (hremark : ((host'.get? "remark").elim true fun d =>
      d.str?.elim false fun s => s.length ≤ 8192) = true) : Admissible py known host' where
  inbound := by
    have hinbound := h.inbound
    rw [Bool.and_eq_true] at hinbound ⊢
    rw [hkept "inboundId" (by decide)]
    exact ⟨hdict, hinbound.2⟩
  addresses := haddresses
  port := hport
  enable := henable
  runtime := by
    rw [truthyAt_congr (hkept "runtime" (by decide)), hkept "runtime" (by decide)]
    exact h.runtime
  endpointType := hkind
  texts := by
    intro key hkey
    by_cases hremarkKey : key = "remark"
    · rw [hremarkKey]
      exact hremark
    · have hmem : ∀ key ∈ hostTexts, key ≠ "remark" → key ∈ keptFields := by
        decide
      rw [hkept key (hmem key hkey hremarkKey)]
      exact h.texts key hkey
  security := by
    rw [choiceAt_congr (hkept "security" (by decide))]
    exact h.security
  switches := by
    intro key hkey
    have hmem : ∀ key ∈ hostSwitches, key ∈ keptFields := by
      decide
    rw [hkept key (hmem key hkey)]
    exact h.switches key hkey
  apart := by
    rw [truthyAt_congr (hkept "overrideSniFromAddress" (by decide)),
      truthyAt_congr (hkept "keepSniBlank" (by decide))]
    exact h.apart
  excluded := by
    unfold Doc.getD
    rw [hkept "excludeFromSubTypes" (by decide)]
    exact h.excluded
  ipVersion := by
    rw [textAt_congr (hkept "mihomoIpVersion" (by decide))]
    exact h.ipVersion
  mask := by
    rw [finalMask_congr (hkept "finalMask" (by decide))]
    exact h.mask
  alpn := by
    rw [hostAlpn_congr (hkept "alpn" (by decide))]
    exact h.alpn

/-- The sections that are accepted. -/
theorem saveSection_hosts_iff {cfg : Config} {s : CoreStore} {hosts : List Doc} :
    (∃ t, saveSection py cfg s .hosts (.list hosts) = .ok t) ↔
      cfg.writesEnabled = true ∧ (py.dumps (.list hosts)).length ≤ 500000 ∧
        ∀ host ∈ hosts, Admissible py (s.inbounds.rows.map Prod.fst) host := by
  simp only [saveSection, except_bind_ok_iff, check_ok_iff, insist_ok_iff, except_pure_ok_iff,
    decide_eq_true_iff]
  constructor
  · rintro ⟨t, u, hwrite, items, hitems, _, hsize, stored, hchecked, rfl⟩
    cases hitems
    refine ⟨?_, hsize, fun host hmem => ?_⟩
    · unfold Config.write at hwrite
      by_contra hoff
      rw [if_neg hoff] at hwrite
      cases hwrite
    · obtain ⟨out, _, hout⟩ := exists_of_mem_mapM_left hchecked hmem
      exact checkHost_ok_iff.mp ⟨out, hout⟩
  · rintro ⟨hwrites, hsize, hall⟩
    obtain ⟨stored, hstored⟩ := exists_mapM_ok fun host hmem => checkHost_ok_iff.mpr (hall host hmem)
    refine ⟨_, (), ?_, hosts, rfl, (), hsize, stored, hstored, rfl⟩
    rw [Config.write, if_pos hwrites]

/-! ## Addresses -/

/-- The addresses of a host as they are given. -/
def rawAddresses (host : Doc) : Option (List Doc) :=
  match host.get? "addresses" with
  | none => some [host.getD "address" (.str "")]
  | some (.atom .null) => some [host.getD "address" (.str "")]
  | some d => d.list?.filter fun items => 1 ≤ items.length && items.length ≤ 64

/-- A list of addresses that is given is not empty. -/
theorem rawAddresses_ne_nil {raw : List Doc} (h : rawAddresses host = some raw) : raw ≠ [] := by
  unfold rawAddresses at h
  split at h
  · rw [← Option.some.inj h]
    exact List.cons_ne_nil _ _
  · rw [← Option.some.inj h]
    exact List.cons_ne_nil _ _
  · rw [Option.filter_eq_some_iff, Bool.and_eq_true, decide_eq_true_iff] at h
    exact List.ne_nil_of_length_pos h.2.1

/-- To drop repetitions drops no value. -/
theorem mem_foldl_unique {items seen : List String} {x : String} :
    x ∈ items.foldl (fun seen item => if item ∈ seen then seen else seen ++ [item]) seen ↔
      x ∈ seen ∨ x ∈ items := by
  induction items generalizing seen with
  | nil => simp
  | cons item items ih =>
      rw [List.foldl_cons, ih, List.mem_cons]
      by_cases hseen : item ∈ seen
      · rw [if_pos hseen]
        constructor
        · rintro (hmem | hmem)
          · exact Or.inl hmem
          · exact Or.inr (Or.inr hmem)
        · rintro (hmem | rfl | hmem)
          · exact Or.inl hmem
          · exact Or.inl hseen
          · exact Or.inr hmem
      · rw [if_neg hseen, List.mem_append, List.mem_singleton, or_assoc]

/-- The address lists that are accepted. -/
theorem hostAddresses_ok_iff : (∃ address rest, hostAddresses py host = .ok (address :: rest)) ↔
    ∃ raw, rawAddresses host = some raw ∧
      (∀ d ∈ raw, ∃ e, d = .str e ∧ plainAddress (py.strip e) = true) ∧
      ∀ p, (host.getD "address" (.str "")).str? = some p →
        py.strip p = "" ∨ plainAddress (py.strip p) = true := by
  have hitem : ∀ (d : Doc) (item : String),
      insist ((d.str?.map py.strip).filter plainAddress)
        "Host address must be a plain IP/domain" = .ok item ↔
        ∃ e, d = .str e ∧ item = py.strip e ∧ plainAddress item = true := by
    intro d item
    rw [insist_ok_iff, Option.filter_eq_some_iff, Option.map_eq_some_iff]
    constructor
    · rintro ⟨⟨e, he, rfl⟩, hplain⟩
      refine ⟨e, ?_, rfl, hplain⟩
      have hbind : (some d).bind Doc.str? = some e ↔ some d = some (.str e) := Doc.bind_str?_iff
      simpa using hbind.mp he
    · rintro ⟨e, rfl, rfl, hplain⟩
      exact ⟨⟨e, rfl, rfl⟩, hplain⟩
  unfold hostAddresses
  change (∃ address rest, (insist (rawAddresses host) _ >>= fun raw => _) = _) ↔ _
  simp only [except_bind_ok_iff, insist_ok_iff]
  constructor
  · rintro ⟨address, rest, raw, hraw, items, hitems, hresult⟩
    refine ⟨raw, hraw, ?_, ?_⟩
    · intro d hd
      obtain ⟨item, _, hok⟩ := exists_of_mem_mapM_left hitems hd
      obtain ⟨e, rfl, rfl, hplain⟩ := (hitem d item).mp hok
      exact ⟨e, rfl, hplain⟩
    · intro p hp
      rw [hp, Option.map_some] at hresult
      by_cases hempty : py.strip p = ""
      · exact Or.inl hempty
      · refine Or.inr ?_
        by_cases hmem : py.strip p ∈ items
        · obtain ⟨d, _, hok⟩ := exists_of_mem_mapM hitems hmem
          obtain ⟨_, _, _, hplain⟩ := (hitem d _).mp hok
          exact hplain
        · have hnew : (decide (py.strip p ≠ "") && decide (py.strip p ∉ items.foldl
              (fun seen item => if item ∈ seen then seen else seen ++ [item]) [])) = true := by
            rw [Bool.and_eq_true, decide_eq_true_iff, decide_eq_true_iff, mem_foldl_unique]
            exact ⟨hempty, by simpa using hmem⟩
          dsimp only at hresult
          rw [if_pos hnew, except_bind_ok_iff] at hresult
          obtain ⟨_, hcheck, _⟩ := hresult
          exact check_ok_iff.mp hcheck
  · rintro ⟨raw, hraw, hitems, hprimary⟩
    obtain ⟨items, hmap⟩ := exists_mapM_ok (f := fun item : Doc =>
      insist ((item.str?.map py.strip).filter plainAddress)
        "Host address must be a plain IP/domain") fun d hd => by
          obtain ⟨e, he, hplain⟩ := hitems d hd
          exact ⟨py.strip e, (hitem d _).mpr ⟨e, he, rfl, hplain⟩⟩
    have hnonempty : items.foldl (fun seen item => if item ∈ seen then seen else seen ++ [item]) [] ≠
        [] := by
      obtain ⟨d, rest, hcons⟩ := List.exists_cons_of_ne_nil (rawAddresses_ne_nil hraw)
      obtain ⟨item, hmem, _⟩ := exists_of_mem_mapM_left hmap (hcons ▸ List.mem_cons_self)
      exact List.ne_nil_of_mem (mem_foldl_unique.mpr (Or.inr hmem))
    obtain ⟨first, others, hunique⟩ := List.exists_cons_of_ne_nil hnonempty
    cases hprimaryText : (host.getD "address" (.str "")).str? with
    | none => exact ⟨first, others, raw, hraw, items, hmap, by rw [hunique]; rfl⟩
    | some p =>
        by_cases hnew : (decide (py.strip p ≠ "") && decide (py.strip p ∉ items.foldl
            (fun seen item => if item ∈ seen then seen else seen ++ [item]) [])) = true
        · have hempty : py.strip p ≠ "" := by
            rw [Bool.and_eq_true, decide_eq_true_iff] at hnew
            exact hnew.1
          have hplain := (hprimary p hprimaryText).resolve_left hempty
          refine ⟨py.strip p, first :: others, raw, hraw, items, hmap, ?_⟩
          rw [Option.map_some]
          dsimp only
          rw [if_pos hnew, except_bind_ok_iff]
          exact ⟨(), check_ok_iff.mpr hplain, by rw [hunique]; rfl⟩
        · refine ⟨first, others, raw, hraw, items, hmap, ?_⟩
          rw [Option.map_some]
          dsimp only
          rw [if_neg hnew, hunique]
          rfl

/-- A host without a list is accepted with a plain address only. -/
theorem hostAddresses_single {a : String} (hnone : host.get? "addresses" = none)
    (haddress : host.get? "address" = some (.str a)) :
    (∃ address rest, hostAddresses py host = .ok (address :: rest)) ↔
      plainAddress (py.strip a) = true := by
  have hgetD : host.getD "address" (.str "") = .str a := by
    rw [Doc.getD, haddress, Option.getD_some]
  have hraw : rawAddresses host = some [.str a] := by
    unfold rawAddresses
    rw [hnone]
    dsimp only
    rw [hgetD]
  rw [hostAddresses_ok_iff, hraw, hgetD]
  constructor
  · rintro ⟨raw, hsame, hitems, _⟩
    obtain ⟨e, he, hplain⟩ := hitems (.str a) (by rw [← Option.some.inj hsame]; simp)
    cases he
    exact hplain
  · intro hplain
    refine ⟨_, rfl, fun d hd => ⟨a, List.mem_singleton.mp hd, hplain⟩, fun p hp => Or.inr ?_⟩
    cases hp
    exact hplain

end

end Core
end DarkXray
