import DarkXray.Management.Lifecycles

/-!
# What representatives may sell

The owner of the panel assigns inbounds, a prefix of identities and a limit of devices to a
representative.  The commands check these terms where they are given and where clients are
created or edited; in between, nothing else may break them.

Main results:

- Theorem {lit}`contract_honored`: every client is within the terms of its representative.
-/

namespace DarkXray
namespace Management

open Library Policy Usage
open DarkXray.Core (Record ClientRow ClientStore sortedSet sameSubId emailRe writable keepsIdentity)

/-! ## The terms -/

/-- What is wanted of a client is within the terms of a representative. -/
structure Within (texts : Texts) (p : Profile) (e : String) (wanted : Record × List ℤ) :
    Prop where
  inbounds : wanted.2 ⊆ p.allowed
  pref : texts.lower p.pref = "" ∨ startsWith (texts.lower e) (texts.lower p.pref) = true
  hwid : p.maxClientHwid ≠ 0 →
    hwidLimitOf texts wanted.1 ≠ 0 ∧ hwidLimitOf texts wanted.1 ≤ p.maxClientHwid

/-- Every client that the policy knows is within the terms of its owner, as the profiles have
them; the owners of the clients are in a relation. -/
structure Honored (texts : Texts) (terms : Table String Profile)
    (owners : String → String → Prop) (s : Panel) : Prop where
  named : Named s
  profiles : s.profiles = terms
  owners : ∀ e u, s.policy.clients.get? e = some u → owners e u.owner
  rows : ∀ e u row, s.policy.clients.get? e = some u → s.managed.get? e = some row →
    row.state ≠ .deleted ∧
      ∃ p, terms.get? u.owner = some p ∧ Within texts p e row.wanted

/-- The terms are honored, with the profiles and owners that are given. -/
def contract (texts : Texts) (terms : Table String Profile)
    (owners : String → String → Prop) : Frame Panel where
  inv := Honored texts terms owners
  rel _ _ := True
  refl _ := trivial
  trans _ _ _ _ _ := trivial

section Contract

variable {texts : Texts} {terms : Table String Profile} {owners : String → String → Prop}
  {s t : Panel} {e email owner : String} {env : Setting} {actor : Actor} {ids : List ℤ}

/-- What keeps the wishes keeps the terms. -/
theorem Honored.follows (h : Honored texts terms owners s) (hfollows : Follows s t) :
    Honored texts terms owners t where
  named := hfollows.named h.named
  profiles := hfollows.profiles.trans h.profiles
  owners := by
    intro e u' hu'
    obtain ⟨u, hu, howner⟩ := hfollows.owner e u' hu'
    exact howner ▸ h.owners e u hu
  rows := by
    intro e u' row' hu' hrow'
    obtain ⟨u, hu, howner⟩ := hfollows.owner e u' hu'
    obtain ⟨row, hrow, hsucceeds⟩ := hfollows.row e row' hrow'
    obtain ⟨hlive, p, hp, hwithin⟩ := h.rows e u row hu hrow
    rcases hsucceeds with ⟨hwanted, hdeleted⟩ | ⟨hnone, -⟩
    · refine ⟨fun hstate => hlive (hdeleted hstate), p, howner ▸ hp, ?_⟩
      rw [hwanted]
      exact hwithin
    · rw [hnone] at hu'
      cases hu'

/-- The frame of the contracts serves the reconciler. -/
theorem serves_contract : Serves (contract texts terms owners) fun _ => True where
  permits :=
    { named := fun _ h => h.named
      later := fun _ _ hs hfollows _ => ⟨hs.follows hfollows, trivial⟩ }
  tick env suppress := (tick_follows env suppress).coarsen (fun _ hs => hs.named)
    fun _ _ hs ht => ⟨hs.follows ht.2, trivial⟩

/-- A change of one client keeps the terms if the client keeps them afterwards. -/
theorem Honored.change (h : Honored texts terms owners s) (ht : Named t)
    (hprofiles : t.profiles = s.profiles) (hspares : ∀ e' ≠ e, Spares e' s t)
    (hclient : ∀ u, t.policy.clients.get? e = some u → owners e u.owner ∧
      ∀ row, t.managed.get? e = some row → row.state ≠ .deleted ∧
        ∃ p, terms.get? u.owner = some p ∧ Within texts p e row.wanted) :
    Honored texts terms owners t where
  named := ht
  profiles := hprofiles.trans h.profiles
  owners := by
    intro e' u hu
    by_cases he : e' = e
    · subst he
      exact (hclient u hu).1
    · exact h.owners e' u ((hspares e' he).policy ▸ hu)
  rows := by
    intro e' u row hu hrow
    by_cases he : e' = e
    · subst he
      exact (hclient u hu).2 row hrow
    · exact h.rows e' u row ((hspares e' he).policy ▸ hu) ((hspares e' he).row ▸ hrow)

/-! ## Checks -/

/-- The limit that the checks see is the one that counts. -/
theorem hwidLimitOf_eq {client : Record} {n : ℤ} (h : rawInt client.doc "limitHwid" = .ok n)
    (hn : n ≠ 0) : hwidLimitOf texts client = n := by
  have hint : intOr0 texts client.doc "limitHwid" = .ok n := by
    unfold rawInt at h
    unfold intOr0 intAt Doc.truthyAt
    cases hget : client.doc.get? "limitHwid" with
    | none =>
        rw [hget] at h
        exact absurd (Except.ok.inj h).symm hn
    | some v =>
        rw [hget] at h
        rcases v with (_ | b | m | text) | items | fields
        · cases h
        · cases b with
          | true => exact h
          | false => exact absurd (Except.ok.inj h).symm hn
        · obtain rfl := Except.ok.inj h
          simp [Doc.truthy, Atom.truthy, hn, intOf]
        · cases h
        · cases h
        · cases h
  rw [hwidLimitOf, hint]

/-- A check of the device cap keeps every frame. -/
theorem checkHwidCap_reads {F : Frame Panel} {message : String} {cap : ℤ} {client : Record} :
    F.Keeps (fun _ => hwidLimitOf texts client ≠ 0 ∧ hwidLimitOf texts client ≤ cap)
      (checkHwidCap message cap client.doc) := by
  refine Frame.Keeps.bind (.ofExcept fun n hn => hn) fun n hn => demand_reads.mono fun _ hcap => ?_
  rw [hwidLimitOf_eq hn hcap.1]
  exact hcap

/-- The checks of the limits establish the limit of devices. -/
theorem checkCaps_hwid {F : Frame Panel} {ipMessage hwidMessage : String} {p : Profile}
    {client : Record} : F.Keeps (fun _ => p.maxClientHwid ≠ 0 →
      hwidLimitOf texts client ≠ 0 ∧ hwidLimitOf texts client ≤ p.maxClientHwid)
        (checkCaps texts ipMessage hwidMessage p client.doc) := by
  refine Frame.Keeps.bind (.when fun _ => ?_) fun _ _ => .when_post fun _ => checkHwidCap_reads
  refine Frame.Keeps.check.bind fun _ _ => demand_reads.bind fun _ _ => ?_
  exact Frame.Keeps.check.bind fun _ _ => demand_reads.respects

/-- The profile of an owner. -/
theorem profileOf_contract : (contract texts terms owners).Keeps
    (fun p => terms.get? owner = some p) (profileOf owner) := by
  refine profileOf_reads.mono fun p hp => ?_
  obtain ⟨s, hs, hp⟩ := hp
  exact hs.profiles ▸ hp

/-- Inbounds are assigned to an owner. -/
def Assigned (terms : Table String Profile) (owner : String) (ids : List ℤ) : Prop :=
  ∃ p, terms.get? owner = some p ∧ ids ⊆ p.allowed

/-- The inbounds of a client are among those of its owner. -/
theorem Assigned.subset (h : Assigned terms owner ids) {p : Profile}
    (hp : terms.get? owner = some p) : ids ⊆ p.allowed := by
  obtain ⟨p', hp', hids⟩ := h
  obtain rfl := Option.some.inj (hp'.symm.trans hp)
  exact hids

/-- Checked inbounds are assigned to the owner. -/
theorem checkInbounds_contract : (contract texts terms owners).Keeps
    (fun _ => Assigned terms owner ids) (checkInbounds owner ids) := by
  refine demand_reads.bind fun _ _ => demand_reads.bind fun _ _ => ?_
  refine profileOf_contract.bind fun p hp => Frame.Keeps.require.bind fun _ hids => ?_
  refine Frame.Keeps.look.bind fun _ _ => demand_reads.bind fun _ _ => ?_
  refine demand_reads.mono fun _ _ => ?_
  exact ⟨p, hp, hids⟩

/-- A checked prefix. -/
theorem startsWith_lower {p : Profile} (hlower : texts.lower email = email)
    (h : texts.lower p.pref = "" ∨ startsWith email (texts.lower p.pref) = true) :
    texts.lower p.pref = "" ∨ startsWith (texts.lower email) (texts.lower p.pref) = true := by
  rwa [hlower]

/-! ## New clients -/

/-- What becomes of the row, the owner and the profiles of a client that is being stored. -/
def storing (email owner : String) (row : Option ManagedRow) (terms : Table String Profile) :
    Frame Panel where
  inv s := (∀ r, row = some r → s.managed.get? email = some r) ∧ s.profiles = terms ∧
    ∀ u, s.policy.clients.get? email = some u → u.owner = owner
  rel _ _ := True
  refl _ := trivial
  trans _ _ _ _ _ := trivial

/-- A client is registered for its owner. -/
theorem registerPolicy_owner {limitIp quota expiresAt now : ℤ} {duration : Value}
    (hs : s.profiles = terms) :
    (registerPolicy actor email owner limitIp quota expiresAt duration now).wp
      (fun _ t => (storing email owner none terms).inv t) (fun _ _ => True) s := by
  unfold registerPolicy onPolicy
  rw [Tx.wp_bind, Tx.wp_within, Tx.wp_mapError]
  unfold Tx.wp
  cases hrun : registerClient actor email owner (.int limitIp) (.int quota) (.int 0) .none
      (.int expiresAt) duration now s.policy with
  | mk result policy =>
      cases result with
      | error failure => trivial
      | ok r =>
          obtain ⟨hnew, u, howner, hclients⟩ := registerClient_clients hrun
          refine ⟨fun r hr => ?_, hs, fun u' hu' => ?_⟩
          · cases hr
          change policy.clients.get? email = some u' at hu'
          rw [hclients, Table.get?_insert hnew, if_pos rfl] at hu'
          exact Option.some.inj hu' ▸ howner

/-- The row of a new client is stored. -/
theorem insertManaged_stores {row : ManagedRow} {meter : ManagedMeter}
    (hs : (storing email owner none terms).inv s) : (insertManaged email row meter).wp
      (fun _ t => (storing email owner (some row) terms).inv t) (fun _ _ => True) s := by
  unfold insertManaged
  rw [Tx.wp_bind, Tx.wp_read, Tx.wp_bind, Tx.wp_require]
  refine ⟨fun hnew => ⟨fun r hr => ?_, hs.2⟩, fun _ => trivial⟩
  obtain rfl := Option.some.inj hr
  change (s.managed.insert email _).get? email = some _
  rw [Table.get?_insert (Option.isNone_iff_eq_none.mp hnew), if_pos rfl]

/-- An edit of the policy stores what the contract allows. -/
theorem editClient_storing {edit : ClientEdit} {now : ℤ} {row : Option ManagedRow} :
    (storing email owner row terms).Respects (onPolicy (editClient actor email edit now)) := by
  refine .within fun s hs => ?_
  rw [Tx.wp_mapError]
  unfold Tx.wp
  cases hrun : editClient actor email edit now s.policy with
  | mk result policy =>
      cases result with
      | error failure =>
          rw [show policy = s.policy from Tx.Atomic.transaction _ _ _ _ hrun]
          exact ⟨hs, trivial⟩
      | ok r =>
          obtain ⟨u, new, hu, howner, hclients⟩ := editClient_clients hrun
          refine ⟨⟨⟨hs.1, hs.2.1, fun u' hu' => ?_⟩, trivial⟩, trivial⟩
          change policy.clients.get? email = some u' at hu'
          rw [hclients, Table.get?_update, if_pos rfl, hu] at hu'
          obtain rfl := Option.some.inj hu'
          exact howner.trans (hs.2.2 u hu)

/-- A transaction that stores a client within the terms of its owner. -/
theorem storeClient_contract {m : Call Unit} {row : ManagedRow} {p : Profile}
    (howners : owners email owner) (hp : terms.get? owner = some p)
    (hwithin : Within texts p email row.wanted) (hstate : row.state ≠ .deleted)
    (hwrites : (writing (Eq email)).Respects m)
    (hstores : ∀ s, s.profiles = terms →
      m.wp (fun _ t => (storing email owner (some row) terms).inv t) (fun _ _ => True) s) :
    (contract texts terms owners).Respects (commit m) := by
  have hpermits : Permits (contract texts terms owners) fun _ => True := serves_contract.permits
  refine (hpermits.calm fun _ => point_touches).bind fun _ _ => .undone fun s hs => ?_
  apply Tx.wp_mono (Tx.wp_and (hwrites s hs.named) (hstores s hs.profiles))
  · intro _ t ht
    obtain ⟨⟨⟨hnamed, hspares⟩, -⟩, hrow, hprofiles, howner⟩ := ht
    refine ⟨⟨hs.change hnamed (hprofiles.trans hs.profiles.symm)
      (fun e' he => hspares e' fun heq => he heq.symm) fun u hu => ?_, trivial⟩, trivial⟩
    rw [howner u hu]
    refine ⟨howners, fun row' hrow' => ?_⟩
    obtain rfl := Option.some.inj ((hrow row rfl).symm.trans hrow')
    exact ⟨hstate, p, hp, hwithin⟩
  · exact fun _ _ _ => trivial

/-- A new client that was checked is within the terms. -/
theorem storeCreated_contract {client : Record} {duration : Value} {p : Profile}
    (howners : owners email owner) (hclient : Bears email client)
    (hp : terms.get? owner = some p) (hwithin : Within texts p email (client, ids)) :
    (contract texts terms owners).Respects
      (storeCreated env actor email owner client ids duration) := by
  have hwanted : Within texts p email (ManagedRow.created client ids).wanted := hwithin
  refine storeClient_contract howners hp hwanted ?_ ?_ fun s hs => ?_
  · intro hdeleted
    cases hdeleted
  · refine (registerPolicy_writes rfl).bind fun _ _ => ?_
    refine (permits_writing.touch rfl editClient_touches).bind fun _ _ => ?_
    exact insertManaged_writes rfl hclient.keepsIdentity
  · rw [Tx.wp_bind]
    apply Tx.wp_mono (registerPolicy_owner hs)
    · intro _ t ht
      rw [Tx.wp_bind]
      apply Tx.wp_mono (editClient_storing t ht)
      · exact fun _ v hv => insertManaged_stores hv.1.1
      · exact fun _ _ _ => trivial
    · exact fun _ _ _ => trivial

/-- Staging a checked client keeps the contracts. -/
theorem stageChecked_contract {data : Record} {taken : Reservations} {p : Call Profile}
    {duration : Value} (howners : owners email owner) (hlower : texts.lower email = email)
    (henv : env.texts = texts)
    (hp : (contract texts terms owners).Keeps (fun p => terms.get? owner = some p) p)
    (hids : Assigned terms owner ids) :
    (contract texts terms owners).Respects
      (stageChecked env actor owner email data ids taken p duration) := by
  have hpermits : Permits (contract texts terms owners) fun _ => True := serves_contract.permits
  refine validateClientTransport_reads.bind fun _ _ => demand_reads.bind fun _ _ => ?_
  refine demand_reads.bind fun _ _ => hp.bind fun p hp => demand_reads.bind fun _ hpref => ?_
  refine (hpermits.calm fun _ => drawCredentials_calm).bind fun client hclient => ?_
  refine ofFailure_reads.bind fun x hx => ?_
  refine (hpermits.calm fun _ => storeGroup_calm).bind fun _ _ => ?_
  refine checkCaps_hwid.bind fun _ hhwid => ?_
  have hstored := (hclient.normalizeGroup hx).defaults clientDefaults
  rw [henv] at hhwid hpref
  have hwithin : Within texts p email (clientDefaults.foldl setDefault x.1, ids) :=
    ⟨hids.subset hp, startsWith_lower hlower hpref, hhwid⟩
  refine Frame.Keeps.bind (.handle (storeCreated_contract howners hstored hp hwithin)
    fun halt m' hm' => ?_) fun _ _ => hpermits.calm fun _ => audit_touches
  split at hm'
  · cases hm'
    exact .raise
  · cases hm'

/-- A creation keeps the contracts. -/
theorem create_contract {data : Doc} {duration : Value} (henv : env.texts = texts) :
    (contract texts terms fun _ _ => True).Respects (create env actor owner data ids duration) := by
  have hpermits : Permits (contract texts terms fun _ _ => True) fun _ => True :=
    serves_contract.permits
  refine validated_reads.bind fun data _ => ?_
  refine (hpermits.calm fun _ => creationSets_calm).bind fun taken _ => ?_
  refine requireCreate_reads.bind fun _ _ => identityOf_reads.bind fun email hlower => ?_
  refine checkInbounds_contract.bind fun _ hids => ?_
  rw [henv] at hlower
  refine Frame.Keeps.bind (stageChecked_contract trivial hlower henv profileOf_contract hids)
    fun _ _ => ?_
  exact serves_contract.tick env true

/-- Staging a client of a batch keeps the contracts. -/
theorem stageInBatch_contract {taken : Reservations} {raw : Doc} {p : Profile}
    (henv : env.texts = texts) (hp : terms.get? owner = some p)
    (hids : Assigned terms owner ids) :
    (contract texts terms fun _ _ => True).Respects
      (stageInBatch env actor owner p ids taken raw) := by
  refine requireCreate_reads.bind fun _ _ => validated_reads.bind fun data _ => ?_
  refine identityOf_reads.bind fun email hlower => ?_
  rw [henv] at hlower
  refine Frame.Keeps.bind (stageChecked_contract trivial hlower henv (.pure hp) hids)
    fun _ _ => .pure trivial

/-- A batch of creations keeps the terms. -/
theorem createBatch_contract {clients : List Doc} (henv : env.texts = texts) :
    (contract texts terms fun _ _ => True).Respects (createBatch env actor owner clients ids) := by
  have hserves : Serves (contract texts terms fun _ _ => True) fun _ => True := serves_contract
  refine demand_reads.bind fun _ _ => ?_
  have hpreflight : (contract texts terms fun _ _ => True).Keeps
      (fun x => ∀ y, x = some y → terms.get? owner = some y.1 ∧ Assigned terms owner ids)
        (batchPreflight env actor owner ids) := by
    refine .handle ?_ fun halt m' hm' => ?_
    · refine requireRight_reads.bind fun _ _ => checkInbounds_contract.bind fun _ hids => ?_
      refine profileOf_contract.bind fun p hp => ?_
      refine (hserves.permits.calm fun _ => creationSets_calm).bind fun taken _ => .pure ?_
      intro y hy
      obtain rfl := Option.some.inj hy
      exact ⟨hp, hids⟩
    · split at hm'
      · cases hm'
        exact .pure fun y hy => (Option.some_ne_none y hy.symm).elim
      · cases hm'
  refine hpreflight.bind fun x hx => ?_
  cases x with
  | none => exact .pure trivial
  | some y =>
      obtain ⟨hp, hids⟩ := hx y rfl
      refine Frame.Keeps.bind (.foldlM (fun raw _ x _ => .handle ?_ fun halt m' hm' => ?_)
        (q := fun _ => True) trivial) fun done _ => .when fun _ => ?_
      · exact (stageInBatch_contract henv hp hids).bind fun _ _ => .pure trivial
      · split at hm'
        · cases hm'
          exact .pure trivial
        · cases hm'
      · exact reconcileCreated_keeps hserves fun _ _ => trivial

/-! ## Adopted clients -/

/-- A record of the core that is within the terms of an owner, apart from its inbounds. -/
def Adoptable (texts : Texts) (owner email : String) (s : Panel) : Prop :=
  ∀ p record, s.profiles.get? owner = some p → s.core.get? email = some record →
    Within texts p email (((writable record.body).set "email" (.str email)), [])

/-- Reading the detail of a client. -/
theorem wp_clientDetail (s : Panel) : (clientDetail email).wp
    (fun record t => t = s ∧ s.core.get? email = some record) (fun _ t => t = s) s := by
  unfold clientDetail onCore Core.clientDetail
  rw [Tx.wp_within, Tx.wp_mapError, Tx.wp_bind, Tx.wp_read, Tx.wp_demand]
  exact ⟨fun record hrecord => ⟨rfl, hrecord⟩, fun _ => rfl⟩

/-- Writing an adopted client stores what the contract allows. -/
theorem writeAdopted_stores {client : Record} {up down : ℤ} (hs : s.profiles = terms) :
    (writeAdopted env actor email owner client ids up down).wp
      (fun _ t => (storing email owner (some (.adopted client ids)) terms).inv t)
      (fun _ _ => True) s := by
  unfold writeAdopted
  simp only [Tx.wp_bind, Tx.wp_ofExcept]
  refine ⟨fun limitIp _ => ⟨fun quota _ => ⟨fun expiry _ => ?_, fun _ _ => trivial⟩,
    fun _ _ => trivial⟩, fun _ _ => trivial⟩
  apply Tx.wp_mono (registerPolicy_owner hs)
  · intro _ t ht
    rw [Tx.wp_require]
    refine ⟨fun _ => ?_, fun _ => trivial⟩
    rw [Tx.wp_write]
    refine insertManaged_stores ⟨fun r hr => ?_, ht.2.1, fun u' hu' => ?_⟩
    · cases hr
    · simp only [Table.get?_update, if_pos] at hu'
      obtain ⟨u, hu, rfl⟩ := Option.map_eq_some_iff.mp hu'
      exact ht.2.2 u hu
  · exact fun _ _ _ => trivial

/-- Adopting a client that was found keeps the contracts. -/
theorem adoptFound_contract {found : ClientRow} (hadopt : ∀ p, terms.get? owner = some p →
      Within texts p email ((writable found.body).set "email" (.str email), [])) :
    (contract texts terms fun _ _ => True).Respects (adoptFound env actor owner email found) := by
  have hserves : Serves (contract texts terms fun _ _ => True) fun _ => True := serves_contract
  refine checkInbounds_contract.bind fun _ hids => ?_
  refine hserves.permits.engineClients.bind fun rows _ => Frame.Keeps.demand.bind fun record _ => ?_
  refine ofFailure_reads.bind fun c _ => ?_
  obtain ⟨p, hp, hsubset⟩ := hids
  have hwithin : Within texts p email
      ((writable found.body).set "email" (.str email), found.inbounds) :=
    ⟨hsubset, (hadopt p hp).pref, (hadopt p hp).hwid⟩
  refine Frame.Keeps.bind (storeClient_contract trivial hp hwithin ?_
    (writeAdopted_writes rfl (bears_set _ _)) fun s hs => writeAdopted_stores hs) fun _ _ => ?_
  · intro hdeleted
    cases hdeleted
  · exact (hserves.permits.calm fun _ => audit_touches).bind fun _ _ => hserves.tick env true

/-- An adoption keeps the contracts. -/
theorem adopt_contract (hadopt : Adoptable texts owner email s)
    (hs : (contract texts terms fun _ _ => True).inv s) :
    (adopt env actor owner email).wp (fun _ t => (contract texts terms fun _ _ => True).inv t)
      (fun _ t => (contract texts terms fun _ _ => True).inv t) s := by
  unfold adopt
  rw [Tx.wp_bind, Tx.wp_require]
  refine ⟨fun _ => ?_, fun _ => hs⟩
  rw [Tx.wp_bind]
  apply Tx.wp_mono (wp_clientDetail s)
  · rintro found t ⟨rfl, hfound⟩
    have hrest : (contract texts terms fun _ _ => True).Respects
        (adoptFound env actor owner email found) :=
      adoptFound_contract fun p hp => hadopt p found (hs.profiles ▸ hp) hfound
    exact Tx.wp_mono (hrest t hs) (fun _ _ ht => ht.1.1) fun _ _ ht => ht.1
  · rintro _ t rfl
    exact hs

/-! ## Edits -/

/-- A client has one owner. -/
def Single (owners : String → String → Prop) : Prop :=
  ∀ e o o', owners e o → owners e o' → o = o'

/-- What an edit makes of a client is within the terms of its owner, apart from the prefix. -/
structure Allows (texts : Texts) (terms : Table String Profile) (owner : String)
    (wanted : Record × List ℤ) : Prop where
  inbounds : Assigned terms owner wanted.2
  hwid : ∀ p, terms.get? owner = some p → p.maxClientHwid ≠ 0 →
    hwidLimitOf texts wanted.1 ≠ 0 ∧ hwidLimitOf texts wanted.1 ≤ p.maxClientHwid

/-- An edit that was checked is stored. -/
theorem staged_contract (hsingle : Single owners) (howner : owners email owner)
    {desired : Record} (hdesired : Bears email desired)
    (hallows : Allows texts terms owner (desired, ids)) {enables : Bool} :
    (contract texts terms owners).Respects
      (setManaged email (ManagedRow.staged desired ids enables)) := by
  refine .write fun s hs => ⟨?_, trivial⟩
  refine hs.change (hs.named.update fun row _ => hdesired.keepsIdentity) rfl
    (fun e' he => spares_update s he) fun u hu => ⟨hs.owners email u hu, fun row' hrow' => ?_⟩
  simp only [Table.get?_update] at hrow'
  obtain ⟨row, hrow, rfl⟩ := Option.map_eq_some_iff.mp hrow'
  obtain ⟨-, p, hp, hwithin⟩ := hs.rows email u row hu hrow
  refine ⟨fun hdeleted => ?_, p, hp, ?_⟩
  · cases hdeleted
  · rw [hsingle email _ _ (hs.owners email u hu) howner] at hp
    exact ⟨hallows.inbounds.subset hp, hwithin.pref, hallows.hwid p hp⟩

/-- Storing an edit keeps the contracts. -/
theorem storeEdit_contract (hsingle : Single owners) (howner : owners email owner)
    {patch desired : Record} (hdesired : Bears email desired)
    (hallows : Allows texts terms owner (desired, ids)) :
    (contract texts terms owners).Respects (storeEdit env email patch desired ids) := by
  have hpermits : Permits (contract texts terms owners) fun _ => True := serves_contract.permits
  refine hpermits.commit (Frame.Keeps.bind (.when fun _ => ?_) fun _ _ => ?_)
  · exact hpermits.touch (e := email) trivial editClient_touches
  · exact staged_contract hsingle howner hdesired hallows

/-- The owner of a client that a command finds. -/
theorem ownRow_contract {action : String} : (contract texts terms owners).Keeps
    (fun u => owners email u.owner) (ownRow actor email action) := by
  refine ownRow_reads.mono fun u hu => ?_
  obtain ⟨s, hs, hu⟩ := hu
  exact hs.owners email u hu

/-- An edit that was checked. -/
theorem mergeEdit_contract {base patch : Record} : (contract texts terms owners).Keeps
    (fun x => Assigned terms owner ids ∧ Bears email x.1)
    (mergeEdit env owner email base patch ids) := by
  refine checkInbounds_contract.bind fun _ hids => validateClientTransport_reads.bind fun _ _ => ?_
  exact ofFailure_reads.mono fun x hx => ⟨hids, (bears_set _ _).normalizeGroup hx⟩

/-- An edit that passes the caps respects the device cap. -/
theorem checkEditCaps_contract (henv : env.texts = texts) {desired : Record} :
    (contract texts terms owners).Keeps (fun _ => ∀ p, terms.get? owner = some p →
      p.maxClientHwid ≠ 0 →
        hwidLimitOf texts desired ≠ 0 ∧ hwidLimitOf texts desired ≤ p.maxClientHwid)
      (checkEditCaps env owner desired) := by
  refine profileOf_contract.bind fun p hp => checkCaps_hwid.mono fun _ hhwid p' hp' => ?_
  obtain rfl := Option.some.inj (hp.symm.trans hp')
  exact henv ▸ hhwid

/-- An update keeps the contracts. -/
theorem update_contract (hsingle : Single owners) (henv : env.texts = texts) {patch : Doc}
    {ids : Option (List ℤ)} {reconcile : Bool} :
    (contract texts terms owners).Respects (update env actor email patch ids reconcile) := by
  have hserves : Serves (contract texts terms owners) fun _ => True := serves_contract
  refine validated_reads.bind fun patch _ => checkPatch_reads.bind fun _ _ => ?_
  refine ownRow_contract.bind fun u howner => ?_
  refine Frame.Keeps.look.bind fun row _ => Frame.Keeps.demand.bind fun row _ => ?_
  refine demand_reads.bind fun _ _ => desiredBase_reads.bind fun base _ => ?_
  refine mergeEdit_contract.bind fun x hx => ?_
  refine (hserves.permits.calm fun _ => storeGroup_calm).bind fun _ _ => ?_
  refine (checkEditCaps_contract henv).bind fun _ hhwid => ?_
  refine (storeEdit_contract hsingle howner hx.2 ⟨hx.1, hhwid⟩).bind fun _ _ => ?_
  refine (hserves.permits.calm fun _ => audit_touches).bind fun _ _ => ?_
  exact .when fun _ => reconcileClient_keeps hserves trivial

/-- A plan that was checked. -/
structure Planned (texts : Texts) (terms : Table String Profile) (owners : String → String → Prop)
    (plan : EditPlan) : Prop where
  owner : owners plan.email plan.owner
  bears : Bears plan.email plan.desired
  allows : Allows texts terms plan.owner (plan.desired, plan.ids)

/-- Planning an edit keeps the contracts. -/
theorem planEdit_contract (henv : env.texts = texts) {raw : Doc} {attach : Bool} :
    (contract texts terms owners).Keeps (Planned texts terms owners)
      (planEdit env actor attach raw) := by
  refine demand_reads.bind fun _ _ => validated_reads.bind fun patch _ => ?_
  refine checkPatch_reads.bind fun _ _ => ownRow_contract.bind fun u howner => ?_
  refine Frame.Keeps.bind (.when fun _ => requireRight_reads) fun _ _ => ?_
  refine metaOf_reads.bind fun row _ => demand_reads.bind fun _ _ => ?_
  refine desiredBase_reads.bind fun base _ => Frame.Keeps.check.bind fun given _ => ?_
  refine mergeEdit_contract.bind fun x hx => (checkEditCaps_contract henv).bind fun _ hhwid => ?_
  exact .pure ⟨howner, hx.2, hx.1, hhwid⟩

/-- Bulk edits leave the owners. -/
theorem editPlans_contract {plans : List EditPlan} :
    (contract texts terms owners).Respects (editPlans env plans) := by
  refine .ite (fun _ => .pure trivial) fun _ => .within fun s hs => ?_
  rw [Tx.wp_mapError]
  unfold Tx.wp
  cases hrun : editClientsMany system (policyEdits env plans) s.policy with
  | mk result policy =>
      cases result with
      | error failure =>
          rw [show policy = s.policy from editClientsMany_atomic _ _ _ _ _ hrun]
          exact ⟨hs, trivial⟩
      | ok r =>
          refine ⟨⟨hs.follows ⟨rfl, fun e u' hu' => ?_, fun _ row hrow => ⟨row, hrow⟩,
            fun _ row hrow => ⟨row, hrow, .refl row⟩⟩, trivial⟩, trivial⟩
          have howner := (editClientsMany_edits hrun).owners e
          rw [show policy.clients.get? e = some u' from hu', Option.map_some] at howner
          exact Option.map_eq_some_iff.mp howner.symm

/-- An update of a batch keeps the contracts. -/
theorem updateBatch_contract (hsingle : Single owners) (henv : env.texts = texts)
    {items : List Doc} {attach : Bool} :
    (contract texts terms owners).Respects (updateBatch env actor items attach) := by
  have hserves : Serves (contract texts terms owners) fun _ => True := serves_contract
  refine demand_reads.bind fun _ _ => ?_
  have hplan : (contract texts terms owners).Keeps
      (fun plans => ∀ plan ∈ plans, Planned texts terms owners plan)
      (items.foldlM (planItem env actor attach) []) := by
    refine .foldlM (fun raw _ plans hplans => .handle
      ((planEdit_contract henv).bind fun plan hplan => .pure fun x hx => ?_)
      fun halt m' hm' => ?_) fun _ hx => (List.not_mem_nil hx).elim
    · rcases List.mem_append.mp hx with hold | hlast
      · exact hplans x hold
      · exact List.mem_singleton.mp hlast ▸ hplan
    · split at hm'
      · cases hm'
        exact .pure hplans
      · cases hm'
  refine hplan.bind fun plans hplans => Frame.Keeps.bind (q := fun _ => True) ?_ fun staged _ =>
    .when fun _ => hserves.tick env true
  refine hserves.permits.commit (editPlans_contract.bind fun errors _ => ?_)
  refine Frame.Keeps.bind (.forM fun p _ => hserves.permits.calm fun _ =>
    write_alike (addGroup_alike _ _)) fun _ _ => ?_
  refine Frame.Keeps.bind (.forM fun p hp => ?_) fun _ _ => ?_
  · have hplan := hplans p (List.mem_filter.mp hp).1
    exact staged_contract hsingle hplan.owner hplan.bears hplan.allows
  · exact Frame.Keeps.bind (hserves.permits.calm fun _ => write_alike fun s =>
      ⟨rfl, rfl, rfl, rfl, rfl, rfl, rfl, rfl, rfl⟩) fun _ _ => .pure trivial

/-! ## New terms -/

/-- The clients of an owner are within new terms. -/
def restricting (texts : Texts) (terms : Table String Profile) (owner : String) (p : Profile) :
    Frame Panel where
  inv s := Honored texts terms (fun _ _ => True) s ∧ ∀ e u row,
    s.policy.clients.get? e = some u → s.managed.get? e = some row → u.owner = owner →
      Within texts p e row.wanted
  rel _ _ := True
  refl _ := trivial
  trans _ _ _ _ _ := trivial

/-- New terms are checked against the clients that there are. -/
theorem checkRestriction_contract {allowed : List ℤ} {pref name : String} {ips hwid : ℤ}
    (hpref : texts.lower pref = pref) (hs : Honored texts terms (fun _ _ => True) s) :
    (checkRestriction texts owner allowed pref ips hwid).wp
      (fun _ t => (restricting texts terms owner
        ⟨name, sortedSet allowed, pref, ips, hwid⟩).inv t)
      (fun _ t => Honored texts terms (fun _ _ => True) t) s := by
  unfold checkRestriction demand
  simp only [Tx.wp_bind, Tx.wp_read, Tx.wp_require]
  refine ⟨fun hinbounds => ⟨fun _ => ⟨fun hhwid => ⟨fun hprefix =>
    ⟨hs, fun e u row hu hrow howner => ?_⟩, fun _ => hs⟩, fun _ => hs⟩, fun _ => hs⟩, fun _ => hs⟩
  have hmem : (e, row, u) ∈ s.clientsOf owner := by
    have hlisted : (e, row) ∈ s.metas := mem_metas_iff.mpr ⟨hrow, (hs.rows e u row hu hrow).1⟩
    refine List.mem_filterMap.mpr ⟨(e, row), hlisted, ?_⟩
    rw [hu, Option.filter_some, if_pos (decide_eq_true howner)]
    rfl
  refine ⟨fun i hi => Core.mem_sortedSet.mpr (hinbounds _ hmem hi), ?_, fun hcap => ?_⟩
  · rw [hpref]
    exact hprefix.imp id fun hall => hall _ hmem
  · exact hhwid.resolve_left hcap _ hmem

/-- The frame of a restriction permits all writes. -/
theorem permits_restricting {p : Profile} :
    Permits (restricting texts terms owner p) fun _ => True where
  named _ h := h.1.named
  later s t hs hfollows _ := by
    refine ⟨⟨hs.1.follows hfollows, fun e u' row' hu' hrow' howner' => ?_⟩, trivial⟩
    obtain ⟨u, hu, howner⟩ := hfollows.owner e u' hu'
    obtain ⟨row, hrow, ⟨hwanted, -⟩ | ⟨hnone, -⟩⟩ := hfollows.row e row' hrow'
    · rw [hwanted]
      exact hs.2 e u row hu hrow (howner.trans howner')
    · rw [hnone] at hu'
      cases hu'

/-- Registering the owner changes no client. -/
theorem registerOwner_follows {a : OwnerPut} {F : Frame Panel} (h : Permits F fun _ => True) :
    F.Respects (onPolicy (registerOwner actor owner a.volumeCreditBytes a.unlimitedCredit
      a.maxClients a.manual a.quotaBytes a.uuid)) := by
  refine .within fun s hs => ?_
  rw [Tx.wp_mapError]
  unfold Tx.wp
  cases hrun : registerOwner actor owner a.volumeCreditBytes a.unlimitedCredit a.maxClients a.manual
      a.quotaBytes a.uuid s.policy with
  | mk result policy =>
      cases result with
      | error failure =>
          rw [show policy = s.policy from registerOwner_atomic _ _ _ _ _ _ _ _ _ _ _ hrun]
          exact Frame.later_refl hs
      | ok r =>
          have hclients := registerOwner_clients hrun
          refine ⟨h.later s _ hs ⟨rfl, fun e u hu => ⟨u, ?_, rfl⟩, fun _ row hrow => ⟨row, hrow⟩,
            fun _ row hrow => ⟨row, hrow, .refl row⟩⟩ fun _ he => (he trivial).elim, trivial⟩
          rw [← hclients]
          exact hu

/-- The profiles after the terms of an owner were replaced. -/
theorem honored_upsert {p : Profile} (hs : (restricting texts terms owner p).inv s) :
    Honored texts (terms.upsert owner p fun _ => p) (fun _ _ => True)
      { s with profiles := s.profiles.upsert owner p fun _ => p } where
  named := hs.1.named
  profiles := congrArg (fun terms : Table String Profile => terms.upsert owner p fun _ => p)
    hs.1.profiles
  owners _ _ _ := trivial
  rows := by
    intro e u row hu hrow
    obtain ⟨hlive, p', hp', hwithin⟩ := hs.1.rows e u row hu hrow
    refine ⟨hlive, ?_⟩
    rw [Table.get?_upsert]
    split <;> rename_i howner
    · refine ⟨p, ?_, hs.2 e u row hu hrow howner⟩
      cases terms.get? owner <;> rfl
    · exact ⟨p', hp', hwithin⟩

/-- The terms are honored, whatever they are. -/
def Sells (texts : Texts) (s : Panel) : Prop :=
  Honored texts s.profiles (fun _ _ => True) s

/-- Honored contracts sell. -/
theorem Honored.sells (h : Honored texts terms owners s) : Sells texts s where
  named := h.named
  profiles := rfl
  owners _ _ _ := trivial
  rows e u row hu hrow := h.profiles ▸ h.rows e u row hu hrow

/-- New terms are stored. -/
theorem storeProfile_contract {a : OwnerPut} {p : Profile}
    (hs : (restricting texts terms owner p).inv s) :
    (storeProfile env actor owner a p).wp (fun _ t => Sells texts t)
      (fun _ t => Sells texts t) s := by
  have hpermits : Permits (restricting texts terms owner p) fun _ => True := permits_restricting
  have hserves : Serves (contract texts (terms.upsert owner p fun _ => p) fun _ _ => True)
    fun _ => True := serves_contract
  unfold storeProfile
  rw [Tx.wp_bind]
  apply Tx.wp_mono (hpermits.commit (registerOwner_follows hpermits) s hs)
  · intro _ t ht
    rw [Tx.wp_bind, commit, Tx.wp_bind]
    apply Tx.wp_mono (hpermits.calm (fun _ => point_touches) t ht.1.1)
    · intro _ v hv
      rw [Tx.wp_transaction, Tx.wp_write]
      have hrest : (contract texts (terms.upsert owner p fun _ => p) fun _ _ => True).Respects (do
          audit actor.id owner "owner.update" owner
            "resource credits and representative policy updated"
          tick env true) :=
        (hserves.permits.calm fun _ => audit_touches).bind fun _ _ => hserves.tick env true
      apply Tx.wp_mono (hrest _ (honored_upsert hv.1.1))
      · exact fun _ w hw => Honored.sells hw.1.1
      · exact fun _ w hw => Honored.sells hw.1
    · exact fun _ v hv => hv.1.1.sells
  · exact fun _ t ht => ht.1.1.sells

/-- A change of an owner keeps the contracts. -/
theorem ownerPut_contract {a : OwnerPut} (henv : env.texts = texts) (hs : Sells texts s) :
    (ownerPut env actor owner a).wp (fun _ t => Sells texts t) (fun _ t => Sells texts t) s := by
  have hpref : texts.lower (env.texts.lower (env.texts.strip a.pref)) =
      env.texts.lower (env.texts.strip a.pref) := by
    rw [henv, texts.lower_lower]
  unfold ownerPut demand ofFailure
  simp only [Tx.wp_bind, Tx.wp_read, Tx.wp_require, Tx.wp_mapError, Tx.wp_ofExcept]
  refine ⟨fun _ => ⟨fun _ => ⟨fun _ => ⟨fun _ => ⟨fun ips _ => ⟨fun hwid _ => ⟨fun _ => ?_,
    fun _ => hs⟩, fun _ _ => hs⟩, fun _ _ => hs⟩, fun _ => hs⟩, fun _ => hs⟩, fun _ => hs⟩,
    fun _ => hs⟩
  rw [henv]
  apply Tx.wp_mono (checkRestriction_contract (henv ▸ hpref) hs)
  · exact fun _ t ht => storeProfile_contract ht
  · exact fun _ t ht => ht.sells

/-! ## Runs -/

/-- A command that works with the library, and adopts only what is within the terms. -/
def Lawful (texts : Texts) (s : Panel) : Happening → Prop
  | .command env _ c => env.texts = texts ∧
      ∀ actor owner email, c = .adopt actor owner email → Adoptable texts owner email s
  | .outside => True

/-- What a frame about the terms says of a procedure. -/
theorem contract_sells {m : Call Unit} (hm : (contract texts s.profiles owners).Respects m)
    (hs : Honored texts s.profiles owners s) (script : List Answer) :
    Sells texts (m (s.facing script)).2 := by
  have hfacing : Honored texts s.profiles owners (s.facing script) :=
    hs.follows (facing_alike s script).follows
  exact Honored.sells (hm.later hfacing).1

/-- What a call leaves sells. -/
theorem sells_of_wp {m : Call Unit}
    (hm : m.wp (fun _ t => Sells texts t) (fun _ t => Sells texts t) s) : Sells texts (m s).2 := by
  revert hm
  unfold Tx.wp
  rcases m s with ⟨_ | a, t⟩
  · exact id
  · exact id

/-- The owners of the clients, as they are. -/
theorem Sells.owned (hs : Sells texts s) : Honored texts s.profiles
    (fun e o => ∃ u, s.policy.clients.get? e = some u ∧ u.owner = o) s where
  named := hs.named
  profiles := rfl
  owners _ u hu := ⟨u, hu, rfl⟩
  rows := hs.rows

/-- A client has one owner. -/
theorem single_owned (s : Panel) :
    Single fun e o => ∃ u, s.policy.clients.get? e = some u ∧ u.owner = o := by
  rintro e o o' ⟨u, hu, rfl⟩ ⟨u', hu', rfl⟩
  rw [Option.some.inj (hu.symm.trans hu')]

/-- Other answers of the surroundings keep the contracts. -/
theorem Sells.facing (hs : Sells texts s) (script : List Answer) :
    Sells texts (s.facing script) :=
  (hs.follows (facing_alike s script).follows).sells

/-- A command keeps the terms. -/
theorem Command.sells {c : Command} (henv : env.texts = texts)
    (hadopt : ∀ actor owner email, c = .adopt actor owner email → Adoptable texts owner email s)
    (hs : Sells texts s) (script : List Answer) : Sells texts (c.run env (s.facing script)).2 := by
  have hserves : Serves (contract texts s.profiles fun _ _ => True) fun _ => True := serves_contract
  cases c with
  | ownerPut actor owner a => exact sells_of_wp (ownerPut_contract henv (hs.facing script))
  | create actor owner client ids duration => exact contract_sells (create_contract henv) hs script
  | createBatch actor owner clients ids =>
      exact contract_sells (createBatch_contract henv) hs script
  | adopt actor owner email =>
      have hfacing : Adoptable texts owner email (s.facing script) := hadopt actor owner email rfl
      apply sells_of_wp
      exact Tx.wp_mono (adopt_contract hfacing (hs.facing script)) (fun _ _ ht => Honored.sells ht)
        fun _ _ ht => Honored.sells ht
  | update actor email patch ids reconcile =>
      exact contract_sells (update_contract (single_owned s) henv) hs.owned script
  | updateBatch actor items attach =>
      exact contract_sells (updateBatch_contract (single_owned s) henv) hs.owned script
  | destroy actor email kind =>
      exact contract_sells (destroy_keeps hserves fun _ _ _ => trivial) hs script
  | tick suppress => exact contract_sells (hserves.tick env suppress) hs script
  | retryOperation actor email =>
      exact contract_sells (retryOperation_keeps hserves fun _ _ _ => trivial) hs script
  | restoreMissing actor email confirmation =>
      exact contract_sells (restoreMissing_keeps hserves fun _ _ _ => trivial) hs script
  | resolveReset actor email confirmation =>
      exact contract_sells (resolveReset_keeps hserves fun _ _ _ => trivial) hs script
  | start =>
      refine contract_sells (recoverResets_keeps hserves.permits fun s hs => ?_) hs script
      exact ⟨hs.follows (follows_recovered s), trivial⟩

/-- Every client of a representative has inbounds that are assigned to the representative, an
identity with its prefix, and a limit of devices within its limit, after every run of commands
from a panel without clients, whatever fails on the way. -/
theorem contract_honored {es : List Happening} {u : Client} {row : ManagedRow} (hs : Fresh s)
    (hrun : Run (Guarded Happens (Lawful texts)) s es t) (hu : t.policy.clients.get? e = some u)
    (hrow : t.managed.get? e = some row) :
    row.state ≠ .deleted ∧
      ∃ p, t.profiles.get? u.owner = some p ∧ Within texts p e row.wanted := by
  have hnone : Sells texts s := by
    refine ⟨fun e row hrow => ?_, rfl, fun _ _ _ => trivial, fun e u row _ hrow => ?_⟩
    · rw [hs e] at hrow
      cases hrow
    · rw [hs e] at hrow
      cases hrow
  have hlast : Sells texts t := by
    refine hrun.invariant hnone fun a ev b ha hstep => ?_
    obtain ⟨hhappens, hlawful⟩ := hstep
    cases hhappens with
    | command env script c => exact Command.sells hlawful.1 hlawful.2 ha script
    | outside haside =>
        refine ⟨fun e row hrow => ha.named e row (haside.managed ▸ hrow), rfl, fun _ _ _ => trivial,
          fun e u row hu hrow => ?_⟩
        rw [haside.profiles]
        exact ha.rows e u row (haside.clients ▸ hu) (haside.managed ▸ hrow)
  exact hlast.rows e u row hu hrow

/-- The client of the example is within the terms. -/
theorem contract_honored_deskSold :
    ∃ p row, deskSold.profiles.get? "desk" = some p ∧ p.pref = "d-" ∧
      deskSold.managed.get? "d-mika" = some row ∧ Within plainTexts p "d-mika" row.wanted := by
  have hsome : (deskSold.managed.get? "d-mika").isSome = true := by decide +kernel
  obtain ⟨row, hrow⟩ := Option.isSome_iff_exists.mp hsome
  have hu : deskSold.policy.clients.get? "d-mika" = some ⟨"desk", 1, 10, 0, false⟩ := by
    decide +kernel
  have hrun : Run (Guarded Happens (Lawful plainTexts)) deskPanel
      [.command noon [] deskTerms, .command noon [] deskCreate] deskSold := by
    refine (Run.single ⟨.command noon [] deskTerms, rfl, fun _ _ _ h => ?_⟩).snoc
      ⟨.command noon [] deskCreate, rfl, fun _ _ _ h => ?_⟩
    · cases h
    · cases h
  obtain ⟨-, p, hp, hwithin⟩ := contract_honored fresh_deskPanel hrun hu hrow
  have hpref : (deskSold.profiles.get? "desk").map Profile.pref = some "d-" := by decide +kernel
  rw [hp] at hpref
  exact ⟨p, row, hp, Option.some.inj hpref, hrow, hwithin⟩

end Contract

end Management
end DarkXray
