import DarkXray.Management.Commands
import DarkXray.Management.Ticks

/-!
# What a command does to the other clients

A command works on the client that it names, or on new ones, and then on all of them by a tick.
A frame about a client is therefore kept by every command that does not name it, if it lets the
other clients change and a tick keeps it.

Main results:

- Theorem {lit}`Command.keeps`: every command keeps a frame about a client that it does not name.
-/

namespace DarkXray
namespace Management

open Library Policy Usage
open DarkXray.Core (Record ClientRow ClientStore sortedSet sameSubId emailRe writable keepsIdentity)

/-! ## The policy store -/

section Store

variable {actor : Actor} {p p' : Store}

/-- Registering an owner leaves the clients. -/
theorem registerOwner_clients {owner uuid : String}
    {volume unlimited maxClients manual quota : Value} {r : Unit}
    (h : registerOwner actor owner volume unlimited maxClients manual quota uuid p = (.ok r, p')) :
    p'.clients = p.clients := by
  simp only [registerOwner, Actor.require, demandPolicy, Tx.require_bind_iff,
    Tx.ofExcept_bind_iff, Tx.transaction_ok_iff, Tx.read_bind] at h
  obtain ⟨-, -, _, -, _, -, _, -, _, -, _, -, _, -, -, -, -, h⟩ := h
  obtain ⟨_, p₁, hstore, hgrant⟩ := Tx.bind_ok_iff.mp h
  obtain ⟨_, -, -, -, -, hclients, -⟩ := storeOwner_ok hstore
  rw [Tx.when_ok_iff, Store.insertCredit_ok_iff] at hgrant
  obtain ⟨-, -, rfl⟩ | ⟨-, rfl⟩ := hgrant
  · exact hclients
  · exact hclients

/-- Registering a client adds it and leaves the other ones. -/
theorem registerClient_clients {email owner : String}
    {limitIp quota price orderId expiresAt days : Value} {now : ℤ} {r : Bool}
    (h : registerClient actor email owner limitIp quota price orderId expiresAt days now p =
      (.ok r, p')) :
    p.clients.get? email = none ∧ ∃ u, u.owner = owner ∧ p'.clients = p.clients.insert email u := by
  simp only [registerClient, Actor.require, demandPolicy, Tx.require_bind_iff,
    Tx.ofExcept_bind_iff, Tx.demand_bind_iff, Tx.transaction_ok_iff, Tx.read_bind] at h
  obtain ⟨-, -, _, -, _, -, _, -, _, -, -, _, -, -, -, _, -, -, h⟩ := h
  obtain ⟨_, p₁, hchange, hinsert⟩ := Tx.bind_ok_iff.mp h
  simp only [Tx.read_bind, Tx.require_bind_iff, Tx.write_bind, Tx.pure_ok_iff] at hinsert
  obtain ⟨hnew, -, rfl⟩ := hinsert
  obtain ⟨-, hclients, -⟩ := conserves_changed (o := "") (Credit.change_ok hchange)
  rw [hclients] at hnew
  exact ⟨hnew, _, rfl, by rw [← hclients]⟩

/-- What a bulk edit changes of the clients that it does not name, and of the owners. -/
structure Edits (edits : List BulkEdit) (p p' : Store) : Prop where
  others : ∀ e, (∀ item ∈ edits, item.clientId ≠ .str e) →
    p'.clients.get? e = p.clients.get? e
  owners : ∀ e, (p'.clients.get? e).map Client.owner = (p.clients.get? e).map Client.owner

/-- An edit of a client changes its own record and no owner. -/
theorem editClient_edits {e : String} {edit : ClientEdit} {now : ℤ} {r : Unit}
    (h : editClient actor e edit now p = (.ok r, p')) :
    (∀ e' ≠ e, p'.clients.get? e' = p.clients.get? e') ∧
      ∀ e', (p'.clients.get? e').map Client.owner = (p.clients.get? e').map Client.owner := by
  obtain ⟨u, new, hu, howner, hclients⟩ := editClient_clients h
  rw [hclients]
  constructor
  · intro e' he
    rw [Table.get?_update, if_neg he]
  · intro e'
    rw [Table.get?_update]
    split <;> rename_i he
    · subst he
      rw [hu]
      exact congrArg some howner
    · rfl

/-- One item of a bulk edit changes the client that it names. -/
theorem bulkItem_edits {seen : List String} {item : BulkEdit} {failed : Option Failure}
    (h : bulkItem actor seen item p = (.ok failed, p')) : Edits [item] p p' := by
  rcases bulkItem_ok h with ⟨-, hrow⟩ | ⟨-, -, rfl⟩
  · obtain ⟨id, requested, now⟩ := item
    simp only [bulkRow] at hrow
    split at hrow
    · simp only [demandPolicy, Tx.require_bind_iff] at hrow
      obtain ⟨hothers, howners⟩ := editClient_edits hrow.2.2
      refine ⟨fun e he => hothers e fun heq => ?_, howners⟩
      subst heq
      exact he _ List.mem_cons_self rfl
    · simp at hrow
  · exact ⟨fun _ _ => rfl, fun _ => rfl⟩

/-- The loop of a bulk edit changes the clients that its items name. -/
theorem bulkLoop_edits {edits : List BulkEdit} {seen : List String} {errors r : Table Value String}
    (h : bulkLoop actor edits seen errors p = (.ok r, p')) : Edits edits p p' := by
  induction edits generalizing seen errors p with
  | nil =>
      rw [bulkLoop, Tx.pure_ok_iff] at h
      obtain ⟨-, rfl⟩ := h
      exact ⟨fun _ _ => rfl, fun _ => rfl⟩
  | cons item edits ih =>
      rw [bulkLoop, Tx.bind_ok_iff] at h
      obtain ⟨failed, p₁, hitem, hrest⟩ := h
      have hfirst := bulkItem_edits hitem
      have hothers := ih hrest
      refine ⟨fun e he => ?_, fun e => (hothers.owners e).trans (hfirst.owners e)⟩
      rw [hothers.others e fun x hx => he x (List.mem_cons_of_mem item hx)]
      refine hfirst.others e fun x hx => ?_
      obtain rfl := List.mem_singleton.mp hx
      exact he x List.mem_cons_self

/-- A bulk edit changes the clients that its items name. -/
theorem editClientsMany_edits {edits : List BulkEdit} {r : Table Value String}
    (h : editClientsMany actor edits p = (.ok r, p')) : Edits edits p p' := by
  simp only [editClientsMany, demandPolicy, Tx.require_bind_iff, Tx.transaction_ok_iff] at h
  exact bulkLoop_edits h.2

end Store

/-! ## Calls that only read -/

section Reading

variable {F : Frame Panel} {email owner action : String} {actor : Actor} {texts : Texts}
  {env : Setting}

/-- A check of a right keeps every frame. -/
theorem requireRight_reads : F.Respects (requireRight actor action owner) :=
  Frame.Keeps.require.respects

/-- A demand keeps every frame, and what is demanded holds afterwards. -/
theorem demand_reads {p : Prop} [Decidable p] {message : String} :
    F.Keeps (fun _ => p) (demand p message) :=
  .require

/-- The client that a command names is one that the policy knows. -/
theorem ownRow_reads : F.Keeps (fun u => ∃ s, F.inv s ∧ s.policy.clients.get? email = some u)
    (ownRow actor email action) := by
  refine demand_reads.bind fun _ _ => .read_bind fun s hs => ?_
  refine (Frame.Keeps.demand.bind fun u hu => ?_) s hs
  exact requireRight_reads.bind fun _ _ => .pure ⟨s, hs, hu⟩

/-- The profile of an owner is read from a store of the frame. -/
theorem profileOf_reads : F.Keeps (fun p => ∃ s, F.inv s ∧ s.profiles.get? owner = some p)
    (profileOf owner) :=
  .read_bind fun s hs => (Frame.Keeps.demand.mono fun _ hp => ⟨s, hs, hp⟩) s hs

/-- The row of a client is read from a store of the frame. -/
theorem metaOf_reads : F.Keeps (fun row => ∃ s, F.inv s ∧ s.managed.get? email = some row)
    (metaOf email) :=
  .read_bind fun s hs => (Frame.Keeps.demand.mono fun _ hrow => ⟨s, hs, hrow⟩) s hs

/-- A check of inbounds keeps every frame. -/
theorem checkInbounds_reads {ids : List ℤ} : F.Respects (checkInbounds owner ids) := by
  refine demand_reads.bind fun _ _ => demand_reads.bind fun _ _ => ?_
  refine profileOf_reads.bind fun _ _ => Frame.Keeps.require.bind fun _ _ => ?_
  exact Frame.Keeps.look.bind fun _ _ => demand_reads.bind fun _ _ => demand_reads.respects

/-- A check of the transport of a client keeps every frame. -/
theorem validateClientTransport_reads {client : Doc} {ids : List ℤ} :
    F.Respects (validateClientTransport client ids) :=
  Frame.Keeps.look.bind fun _ _ => demand_reads.respects

/-- A check of caps keeps every frame. -/
theorem checkCaps_reads {ipMessage hwidMessage : String} {p : Profile} {d : Doc} :
    F.Respects (checkCaps texts ipMessage hwidMessage p d) := by
  refine Frame.Keeps.bind (.when fun _ => ?_) fun _ _ => .when fun _ => ?_
  · refine Frame.Keeps.check.bind fun _ _ => demand_reads.bind fun _ _ => ?_
    exact Frame.Keeps.check.bind fun _ _ => demand_reads.respects
  · exact Frame.Keeps.check.bind fun _ _ => demand_reads.respects

/-- A result that is passed on keeps every frame. -/
theorem ofFailure_reads {α : Type} {x : Except Failure α} :
    F.Keeps (fun a => x = .ok a) (ofFailure x) := by
  intro s hs
  unfold ofFailure
  rw [Tx.wp_mapError, Tx.wp_ofExcept]
  exact ⟨fun a ha => ⟨Frame.later_refl hs, ha⟩, fun _ _ => Frame.later_refl hs⟩

/-- A validation keeps every frame. -/
theorem validated_reads {data : Doc} {part : Bool} : F.Respects (validated texts data part) :=
  ofFailure_reads.bind fun _ _ => Frame.Keeps.demand.respects

/-- The identity of a new client is in lower case. -/
theorem identityOf_reads {data : Record} :
    F.Keeps (fun email => texts.lower email = email) (identityOf texts data) :=
  Frame.Keeps.demand.bind fun _ _ => .pure (texts.lower_lower _)

/-- A check of the right to create keeps every frame. -/
theorem requireCreate_reads : F.Respects (requireCreate actor owner) :=
  requireRight_reads.bind fun _ _ => Frame.Keeps.look.bind fun _ _ => demand_reads.respects

/-- A check of a patch keeps every frame. -/
theorem checkPatch_reads {patch : Record} : F.Respects (checkPatch patch) :=
  demand_reads.respects

/-- A check of the caps of an edit keeps every frame. -/
theorem checkEditCaps_reads {desired : Record} : F.Respects (checkEditCaps env owner desired) :=
  profileOf_reads.bind fun _ _ => checkCaps_reads

/-- What leaves the clients of the core alone keeps every frame. -/
theorem onCore_reads {α : Type} {q : α → Prop} {m : Tx ClientStore Core.Fault α}
    (hm : (Frame.still ClientStore).Keeps q m) : F.Keeps q (onCore m) := by
  refine .within fun s hs => ?_
  rw [Tx.wp_mapError]
  have hsame : ∀ c, (Frame.still ClientStore).Later s.clientStore c →
      F.Later s { s with core := c.clients } := by
    intro c hc
    obtain rfl := hc.2
    exact Frame.later_refl hs
  apply Tx.wp_mono (hm s.clientStore trivial)
  · exact fun _ c hc => ⟨hsame c hc.1, hc.2⟩
  · exact fun _ c hc => hsame c hc

/-- Reading the detail of a client keeps every frame. -/
theorem clientDetail_reads : F.Respects (clientDetail email) :=
  onCore_reads (Frame.Keeps.look.bind fun _ _ => Frame.Keeps.demand.respects)

/-- Reading what an edit starts from keeps every frame. -/
theorem desiredBase_reads {row : ManagedRow} : F.Respects (desiredBase email row) :=
  .ite (fun _ => clientDetail_reads.bind fun _ _ => .pure trivial) fun _ => .pure trivial

end Reading

/-! ## Identities in documents -/

/-- A client names an identity. -/
def Bears (e : String) (client : Record) : Prop :=
  client.doc.get? "email" = some (.str e)

section Bears

variable {e : String} {client : Record}

/-- A record that bears an e-mail keeps its identity. -/
theorem Bears.keepsIdentity (h : Bears e client) : keepsIdentity e client = true := by
  unfold Core.keepsIdentity
  rw [h]
  simp [Doc.str?, Doc.str]

/-- Setting the e-mail makes a record bear it. -/
theorem bears_set (client : Record) (e : String) : Bears e (client.set "email" (.str e)) := by
  unfold Bears Record.set
  rw [Doc.get?_set client.isDict, if_pos rfl]

/-- Setting another field leaves the e-mail. -/
theorem Bears.set (h : Bears e client) {key : String} (hkey : key ≠ "email") (v : Doc) :
    Bears e (client.set key v) := by
  unfold Bears Record.set
  rw [Doc.get?_set_of_ne _ hkey]
  exact h

/-- Filling in another field leaves the e-mail. -/
theorem Bears.fillIn (h : Bears e client) {key : String} (hkey : key ≠ "email") (value : String) :
    Bears e (fillIn client key value) := by
  unfold Management.fillIn
  split
  · exact h
  · exact h.set hkey _

/-- Defaults leave what is there. -/
theorem Bears.setDefault (h : Bears e client) (field : String × Doc) :
    Bears e (setDefault client field) := by
  unfold Management.setDefault
  split <;> rename_i hmissing
  · exact h
  · refine h.set (fun heq => hmissing ?_) _
    rw [heq, h]
    rfl

/-- Defaults leave an e-mail that is there. -/
theorem Bears.defaults (h : Bears e client) (fields : List (String × Doc)) :
    Bears e (fields.foldl Management.setDefault client) := by
  induction fields generalizing client with
  | nil => exact h
  | cons field fields ih => exact ih (h.setDefault field)

/-- A record with credentials bears the e-mail that they are made for. -/
theorem bears_withCredentials (random : ℕ → String) (n : ℕ) (data : Record) :
    Bears e (withCredentials e random n data) := by
  refine Bears.set ?_ (by decide) _
  refine Bears.fillIn ?_ (by decide) _
  refine Bears.fillIn ?_ (by decide) _
  exact (bears_set data e).fillIn (by decide) _

/-- Normalizing the group leaves the e-mail. -/
theorem Bears.normalizeGroup {texts : Texts} (h : Bears e client)
    {x : Record × Option String} (hx : normalizeGroup texts client = .ok x) : Bears e x.1 := by
  unfold Management.normalizeGroup at hx
  split at hx
  · obtain ⟨group, -, hreturn⟩ := except_bind_ok_iff.mp hx
    cases hreturn
    exact h.set (by decide) _
  · cases hx
    exact h

end Bears

/-! ## Calls that write -/

/-- Only some clients may change, and every row names its identity. -/
def writing (free : String → Prop) : Frame Panel where
  inv := Named
  rel s t := ∀ e, ¬free e → Spares e s t
  refl s e _ := .refl e s
  trans _ _ _ h h' e he := (h e he).trans (h' e he)

/-- A frame about the clients that are not free: it lets the free ones change, and what a
process does on its own keeps it. -/
structure Tended (F : Frame Panel) (free : String → Prop) : Prop where
  named : ∀ s, F.inv s → Named s
  known : ∀ s, F.inv s → ∀ e, ¬free e → ∃ row, s.managed.get? e = some row
  later : ∀ s t, F.inv s → Named t → (∀ e, ¬free e → Spares e s t) → F.Later s t
  tick : ∀ env suppress, F.Respects (tick env suppress)
  start : F.Respects recoverResets

/-- A frame that calls for free clients keep, and a tick. -/
structure Serves (F : Frame Panel) (free : String → Prop) : Prop where
  permits : Permits F free
  tick : ∀ env suppress, F.Respects (tick env suppress)

/-- A client is free if a command can find it. -/
def Opens (F : Frame Panel) (free : String → Prop) (e : String) : Prop :=
  ∀ s, F.inv s → ((∃ u, s.policy.clients.get? e = some u) ∨
    ∃ row, s.managed.get? e = some row ∧ row.state ≠ .deleted) → free e

section Writing

variable {F : Frame Panel} {free : String → Prop} {email owner : String} {α : Type}
  {q : α → Prop} {m : Call α} {actor : Actor} {env : Setting} {client : Record} {ids : List ℤ}

/-- A tended frame permits writes to free rows. -/
theorem Tended.permits (h : Tended F free) : Permits F free where
  named := h.named
  later s t hs hfollows hspares := h.later s t hs (hfollows.named (h.named s hs)) hspares

/-- A tended frame serves the reconciler. -/
theorem Tended.serves (h : Tended F free) : Serves F free :=
  ⟨h.permits, h.tick⟩

/-- The frame of the writes to free rows permits them. -/
theorem permits_writing : Permits (writing free) free where
  named _ := id
  later _ _ hs hfollows hspares := ⟨hfollows.named hs, hspares⟩

/-- What only writes free rows keeps a tended frame. -/
theorem Tended.writes (h : Tended F free) (hm : (writing free).Keeps q m) : F.Keeps q m :=
  hm.coarsen h.named fun s t hs ht => h.later s t hs ht.1 ht.2

/-- A write that leaves the rows and spares all clients. -/
theorem write_spares {f : Panel → Panel} (hmanaged : ∀ s, (f s).managed = s.managed)
    (h : ∀ s e, ¬free e → Spares e s (f s)) : (writing free).Respects (Tx.write f : Call Unit) :=
  .write fun s hs => ⟨fun e row hrow => hs e row (hmanaged s ▸ hrow), h s⟩

/-- A write that leaves the clients alike writes no row. -/
theorem write_calm {f : Panel → Panel} (h : ∀ s, Alike s (f s)) :
    (writing free).Respects (Tx.write f : Call Unit) :=
  permits_writing.calm fun _ => write_alike h

/-- A new group leaves the clients alike. -/
theorem addGroup_alike (owner : String) (group : Option String) (s : Panel) :
    Alike s (s.addGroup owner group) := by
  unfold Panel.addGroup
  cases group with
  | none => exact ⟨rfl, rfl, rfl, rfl, rfl, rfl, rfl, rfl, rfl⟩
  | some group =>
      dsimp only
      split
      · exact ⟨rfl, rfl, rfl, rfl, rfl, rfl, rfl, rfl, rfl⟩
      · exact ⟨rfl, rfl, rfl, rfl, rfl, rfl, rfl, rfl, rfl⟩

/-- Storing a group writes no row of a client. -/
theorem storeGroup_calm {e : String} {group : Option String} :
    (touching e).Respects (storeGroup owner group) :=
  .when fun _ => commit_touches (write_alike (addGroup_alike owner group))

/-- Drawing credentials writes no row, and the record bears the e-mail. -/
theorem drawCredentials_calm {e : String} {data : Record} :
    (touching e).Keeps (Bears email) (drawCredentials env email data) := by
  refine Frame.Keeps.look.bind fun n _ => ?_
  refine Frame.Keeps.bind (write_alike fun s => ?_) fun _ _ => .pure (bears_withCredentials _ _ _)
  exact ⟨rfl, rfl, rfl, rfl, rfl, rfl, rfl, rfl, rfl⟩

/-- A procedure of the policy store that is undone when it fails. -/
theorem onPolicy_writes {m : Tx Store Failure α} (hatomic : Tx.Atomic m)
    (h : ∀ s p r, m s = (.ok r, p) → ∀ e, ¬free e → p.clients.get? e = s.clients.get? e) :
    (writing free).Respects (onPolicy m) := by
  refine .within fun s hs => ?_
  rw [Tx.wp_mapError]
  unfold Tx.wp
  cases hrun : m s.policy with
  | mk result policy =>
      cases result with
      | error failure =>
          rw [hatomic _ _ _ hrun]
          exact Frame.later_refl hs
      | ok r =>
          refine ⟨⟨hs, fun e he => ?_⟩, trivial⟩
          exact ⟨rfl, rfl, rfl, rfl, rfl, rfl, rfl, h _ _ _ hrun e he⟩

/-- Registering a policy writes the row of its client only. -/
theorem registerPolicy_writes (hfree : free email) {limitIp quota expiresAt : ℤ} {duration : Value}
    {now : ℤ} : (writing free).Respects
      (registerPolicy actor email owner limitIp quota expiresAt duration now) := by
  have hne : ∀ e, ¬free e → e ≠ email := fun e he heq => he (heq ▸ hfree)
  refine Frame.Keeps.bind (onPolicy_writes (registerClient_atomic _ _ _ _ _ _ _ _ _ _)
    fun s p r hrun e he => ?_) fun _ _ => write_spares (fun _ => rfl) fun s e he => ?_
  · obtain ⟨-, u, -, hclients⟩ := registerClient_clients hrun
    rw [hclients, get?_insert_of_ne _ (hne e he)]
  · refine ⟨rfl, rfl, rfl, rfl, rfl, ?_, rfl, rfl⟩
    rw [Table.get?_upsert, if_neg (hne e he)]

/-- A new row is written under its own e-mail. -/
theorem insertManaged_writes (hfree : free email) {row : ManagedRow} {meter : ManagedMeter}
    (hrow : keepsIdentity email row.desired = true) :
    (writing free).Respects (insertManaged email row meter) := by
  refine .read_bind fun s hs => ?_
  rw [Tx.wp_bind, Tx.wp_require]
  refine ⟨fun hnew => ⟨⟨fun e row' hrow' => ?_, fun e he => ?_⟩, trivial⟩,
    fun _ => Frame.later_refl hs⟩
  · rw [Table.get?_insert (Option.isNone_iff_eq_none.mp hnew)] at hrow'
    split at hrow' <;> rename_i he
    · cases hrow'
      exact he ▸ hrow
    · exact hs e row' hrow'
  · have hne : e ≠ email := fun heq => he (heq ▸ hfree)
    refine ⟨get?_insert_of_ne _ hne _, rfl, rfl, rfl, ?_, rfl, rfl, rfl⟩
    rw [Table.get?_upsert, if_neg hne]

/-- Storing a created client writes its own row only. -/
theorem storeCreated_writes (hfree : free email) (hclient : Bears email client)
    {duration : Value} :
    (writing free).Respects (storeCreated env actor email owner client ids duration) := by
  refine permits_writing.commit ((registerPolicy_writes hfree).bind fun _ _ => ?_)
  refine (permits_writing.touch hfree editClient_touches).bind fun _ _ => ?_
  exact insertManaged_writes hfree hclient.keepsIdentity

/-- A new client is staged if its identity is free. -/
theorem stageChecked_keeps (h : Tended F free) {taken : Reservations}
    (hnew : email ∉ taken.reserved → free email) {data : Record} {p : Call Profile}
    (hp : F.Respects p) {duration : Value} :
    F.Respects (stageChecked env actor owner email data ids taken p duration) := by
  refine validateClientTransport_reads.bind fun _ _ => demand_reads.bind fun _ _ => ?_
  refine demand_reads.bind fun _ hunreserved => hp.bind fun p _ => demand_reads.bind fun _ _ => ?_
  refine (h.permits.calm fun _ => drawCredentials_calm).bind fun client hclient => ?_
  refine ofFailure_reads.bind fun x hx => ?_
  refine (h.permits.calm fun _ => storeGroup_calm).bind fun _ _ => ?_
  refine checkCaps_reads.bind fun _ _ => ?_
  have hstored := (hclient.normalizeGroup hx).defaults clientDefaults
  refine Frame.Keeps.bind (.handle (h.writes (storeCreated_writes (hnew hunreserved) hstored))
    fun halt m' hm' => ?_) fun _ _ => h.permits.calm fun _ => audit_touches
  split at hm'
  · cases hm'
    exact .raise
  · cases hm'

/-- Clients that are not free have taken their identities. -/
def Reserves (env : Setting) (free : String → Prop) (taken : Reservations) : Prop :=
  ∀ e, ¬free e → env.texts.lower e ∈ taken.reserved

/-- A new e-mail outside the reservations is free. -/
theorem Reserves.frees {taken : Reservations} (h : Reserves env free taken)
    (hlower : env.texts.lower email = email) (hnew : email ∉ taken.reserved) : free email := by
  by_contra hbusy
  have hmem := h email hbusy
  rw [hlower] at hmem
  exact hnew hmem

/-- Reading the reservations writes no row. -/
theorem creationSets_calm {e : String} : (touching e).Respects (creationSets env) :=
  engineClients_touches.bind fun _ _ => Frame.Keeps.look.bind fun _ _ => .pure trivial

/-- The reservations that are read cover every client of the frame. -/
theorem creationSets_keeps (h : Tended F free) :
    F.Keeps (Reserves env free) (creationSets env) := by
  refine h.permits.engineClients.bind fun rows _ => .read_bind fun s hs => ?_
  refine ⟨Frame.later_refl hs, fun e he => ?_⟩
  obtain ⟨row, hrow⟩ := h.known s hs e he
  refine List.mem_append_left _ (List.mem_map.mpr ⟨(e, row), ?_, rfl⟩)
  exact Table.get?_eq_some_iff.mp hrow

/-! ## Creating and adopting -/

/-- A creation keeps every tended frame. -/
theorem create_keeps (h : Tended F free) {data : Doc} {duration : Value} :
    F.Respects (create env actor owner data ids duration) := by
  refine validated_reads.bind fun data _ => (creationSets_keeps h).bind fun taken htaken => ?_
  refine requireCreate_reads.bind fun _ _ => identityOf_reads.bind fun email hlower => ?_
  refine checkInbounds_reads.bind fun _ _ => ?_
  refine (stageChecked_keeps h (htaken.frees hlower) profileOf_reads.respects).bind fun _ _ => ?_
  exact h.tick env true

/-- The clients that were staged are free, and what is taken stays taken. -/
structure Stages (env : Setting) (free : String → Prop) (x : Staging) : Prop where
  staged : ∀ e ∈ x.staged, free e
  taken : Reserves env free x.taken

/-- Staging a client of a batch keeps the frame, and its e-mail is free. -/
theorem stageInBatch_keeps (h : Tended F free) {p : Profile} {taken : Reservations}
    (htaken : Reserves env free taken) {raw : Doc} :
    F.Keeps free (stageInBatch env actor owner p ids taken raw) := by
  refine requireCreate_reads.bind fun _ _ => validated_reads.bind fun data _ => ?_
  refine identityOf_reads.bind fun email hlower => ?_
  by_cases hnew : email ∈ taken.reserved
  · refine Frame.Keeps.bind (q := fun _ => False) ?_ fun _ hfalse => hfalse.elim
    refine validateClientTransport_reads.bind fun _ _ => demand_reads.bind fun _ _ => ?_
    exact demand_reads.bind fun _ hunreserved => absurd hnew hunreserved
  · have hfree := htaken.frees hlower hnew
    exact (stageChecked_keeps h (fun _ => hfree) (.pure trivial)).bind fun _ _ => .pure hfree

/-- Staging one client keeps the frame and what is staged. -/
theorem stageOne_keeps (h : Tended F free) {p : Profile} {x : Staging} (hx : Stages env free x)
    {raw : Doc} : F.Keeps (Stages env free) (stageOne env actor owner p ids x raw) := by
  refine .handle ((stageInBatch_keeps h hx.taken).bind fun email hemail => .pure ?_)
    fun halt m' hm' => ?_
  · constructor
    · intro e he
      rcases List.mem_append.mp he with hold | hlast
      · exact hx.staged e hold
      · exact List.mem_singleton.mp hlast ▸ hemail
    · exact fun e he => List.mem_cons_of_mem _ (hx.taken e he)
  · split at hm'
    · cases hm'
      exact .pure hx
    · cases hm'

/-- The schedules of free clients. -/
theorem scheduleFree_keeps (h : Permits F free) {select : String → Bool}
    (hselect : ∀ e, select e = true → free e) : F.Respects (scheduleCycles env select) :=
  scheduleCycles_keeps h fun _ _ m _ hm => h.touch (hselect m.1 hm) schedule_touches

/-- Reading a created client back yields an item under its e-mail. -/
theorem createdItem_reads {e : String} :
    F.Keeps (fun x => ∃ client inbounds, x.1 = batchItem e client inbounds)
      (createdItem env e) := by
  refine Frame.Keeps.look.bind fun row _ => Frame.Keeps.demand.bind fun row _ => ?_
  exact Frame.Keeps.look.bind fun enabled _ => .pure ⟨_, _, rfl⟩

/-- The rows of new clients. -/
theorem settleCreated_keeps (h : Permits F free) {emails : List String}
    (hfree : ∀ e ∈ emails, free e) {items : List (Doc × Bool)} :
    F.Respects (settleCreated emails items) := by
  refine h.commit (.forM fun x hx => h.touch (hfree x.1 (List.of_mem_zip hx).1) ?_)
  refine takenOver_touches.bind fun _ _ => .write fun s _ => ⟨trivial, ?_, fun e he => ?_⟩
  · exact ⟨rfl, fun _ u hu => ⟨u, hu, rfl⟩, fun _ row hrow => ⟨row, hrow⟩,
      fun _ row hrow => ⟨row, hrow, .refl row⟩⟩
  · refine ⟨rfl, rfl, rfl, rfl, ?_, rfl, rfl, rfl⟩
    rw [Table.get?_update, if_neg he]

/-- An exception is answered by a tick. -/
theorem handle_tick (h : Serves F free) {m : Call Unit} (hm : F.Respects m) :
    F.Respects (Tx.handle m fun halt =>
      if halt.isException then some (Management.tick env true) else none) := by
  refine .handle hm fun halt m' hm' => ?_
  split at hm'
  · cases hm'
    exact h.tick env true
  · cases hm'

/-- Reconciling created clients keeps the frame if their rows are free. -/
theorem reconcileCreated_keeps (h : Serves F free) {emails : List String}
    (hfree : ∀ e ∈ emails, free e) : F.Respects (reconcileCreated env emails) := by
  refine handle_tick h (Frame.Keeps.bind (.mapM fun e _ => createdItem_reads)
    fun items hitems => ?_)
  refine Frame.Keeps.bind (scheduleFree_keeps h.permits fun e he =>
    hfree e (of_decide_eq_true he)) fun _ _ => ?_
  refine (h.permits.batch fun d hd => ?_).bind fun _ _ => ?_
  · obtain ⟨x, hx, rfl⟩ := List.mem_map.mp hd
    obtain ⟨e, he, client, inbounds, heq⟩ := exists_of_forall₂ hitems hx
    exact ⟨e, client, inbounds, hfree e he, heq⟩
  · refine (settleCreated_keeps h.permits hfree).bind fun _ _ => ?_
    exact h.permits.calm fun _ => engineFlush_touches

/-- The creation of a batch keeps every tended frame. -/
theorem createBatch_keeps (h : Tended F free) {clients : List Doc} :
    F.Respects (createBatch env actor owner clients ids) := by
  refine demand_reads.bind fun _ _ => ?_
  have hpreflight : F.Keeps (fun x => ∀ y, x = some y → Reserves env free y.2)
      (batchPreflight env actor owner ids) := by
    refine .handle ?_ fun halt m' hm' => ?_
    · refine requireRight_reads.bind fun _ _ => checkInbounds_reads.bind fun _ _ => ?_
      refine profileOf_reads.bind fun p _ => ?_
      refine (creationSets_keeps h).bind fun taken htaken => .pure ?_
      intro y hy
      exact Option.some.inj hy ▸ htaken
    · split at hm'
      · cases hm'
        exact .pure fun y hy => by cases hy
      · cases hm'
  refine hpreflight.bind fun x hx => ?_
  cases x with
  | none => exact .pure trivial
  | some y =>
      have hstart : Stages env free ⟨[], y.2⟩ :=
        ⟨fun _ he => (List.not_mem_nil he).elim, hx y rfl⟩
      refine Frame.Keeps.bind (.foldlM (fun raw _ x hx => stageOne_keeps h hx) hstart)
        fun done hdone => ?_
      exact .when fun _ => reconcileCreated_keeps h.serves hdone.staged

/-- The row of a client stays. -/
def keepingRow (email : String) (row : ManagedRow) : Frame Panel where
  inv s := s.managed.get? email = some row
  rel _ _ := True
  refl _ := trivial
  trans _ _ _ _ _ := trivial

/-- Registering a policy keeps the row of its client. -/
theorem registerPolicy_keepsRow {row : ManagedRow} {limitIp quota expiresAt now : ℤ}
    {duration : Value} : (keepingRow email row).Respects
      (registerPolicy actor email owner limitIp quota expiresAt duration now) := by
  refine Frame.Keeps.bind (q := fun _ => True) (.within fun s hs => ?_) fun _ _ =>
    .write fun s hs => ⟨hs, trivial⟩
  apply Tx.wp_of_forall
  · exact fun _ _ => ⟨⟨hs, trivial⟩, trivial⟩
  · exact fun _ _ => ⟨hs, trivial⟩

/-- An identity that has a row is not adopted again. -/
theorem writeAdopted_known {row : ManagedRow} {up down : ℤ} :
    (keepingRow email row).Keeps (fun _ => False)
      (writeAdopted env actor email owner client ids up down) := by
  refine Frame.Keeps.check.bind fun _ _ => Frame.Keeps.check.bind fun _ _ => ?_
  refine Frame.Keeps.check.bind fun _ _ => registerPolicy_keepsRow.bind fun _ _ => ?_
  refine Frame.Keeps.require.bind fun _ _ => ?_
  refine Frame.Keeps.bind (.write fun s hs => ⟨hs, trivial⟩) fun _ _ => .read_bind fun s hs => ?_
  rw [Tx.wp_bind, Tx.wp_require]
  refine ⟨fun hnone => ?_, fun _ => Frame.later_refl hs⟩
  rw [show s.managed.get? email = some row from hs] at hnone
  cases hnone

/-- Writing an adopted client writes its own row only. -/
theorem writeAdopted_writes (hfree : free email) (hclient : Bears email client) {up down : ℤ} :
    (writing free).Respects (writeAdopted env actor email owner client ids up down) := by
  refine Frame.Keeps.check.bind fun _ _ => Frame.Keeps.check.bind fun _ _ => ?_
  refine Frame.Keeps.check.bind fun _ _ => (registerPolicy_writes hfree).bind fun _ _ => ?_
  refine Frame.Keeps.require.bind fun _ _ => ?_
  refine Frame.Keeps.bind (write_spares (fun _ => rfl) fun s e he => ?_) fun _ _ =>
    insertManaged_writes hfree hclient.keepsIdentity
  have hne : e ≠ email := fun heq => he (heq ▸ hfree)
  refine ⟨rfl, rfl, rfl, rfl, rfl, ?_, rfl, ?_⟩
  · rw [Table.get?_update, if_neg hne]
  · rw [Table.get?_update, if_neg hne]

/-- What is adopted had no row before. -/
theorem storeAdopted_keeps (h : Tended F free) (hclient : Bears email client) {up down : ℤ} :
    F.Respects (storeAdopted env actor email owner client ids up down) := by
  by_cases hfree : free email
  · exact h.writes (permits_writing.commit (writeAdopted_writes hfree hclient))
  · refine (h.permits.calm fun _ => point_touches).bind fun _ _ => .undone fun s hs => ?_
    obtain ⟨row, hrow⟩ := h.known s hs email hfree
    apply Tx.wp_mono (writeAdopted_known s hrow)
    · exact fun _ _ ht => ht.2.elim
    · exact fun _ _ _ => trivial

/-- An adoption keeps every tended frame. -/
theorem adopt_keeps (h : Tended F free) : F.Respects (adopt env actor owner email) := by
  refine Frame.Keeps.require.bind fun _ _ => clientDetail_reads.bind fun found _ => ?_
  refine checkInbounds_reads.bind fun _ _ => h.permits.engineClients.bind fun rows _ => ?_
  refine Frame.Keeps.demand.bind fun record _ => ofFailure_reads.bind fun c _ => ?_
  refine (storeAdopted_keeps h (bears_set _ _)).bind fun _ _ => ?_
  exact (h.permits.calm fun _ => audit_touches).bind fun _ _ => h.tick env true

/-! ## Editing -/

/-- A snapshot of a client writes no row. -/
theorem clientSnapshot_calm {e e' : String} : (touching e).Respects (clientSnapshot e') :=
  reach_touches.bind fun _ _ => collect_touches.bind fun _ _ => .look

/-- Reconciling one client keeps the frame if its row is free. -/
theorem reconcileClient_keeps (h : Serves F free) (hfree : free email) :
    F.Respects (reconcileClient env email) := by
  refine handle_tick h (metaOf_reads.bind fun row _ => ?_)
  refine (h.permits.calm fun _ => clientSnapshot_calm).bind fun existing _ => ?_
  have hcharge : F.Respects (chargeExisting env email row existing) := by
    cases existing with
    | none => exact .pure trivial
    | some record =>
        exact Frame.Keeps.require.bind fun _ _ => h.permits.touch hfree charge_touches
  refine hcharge.bind fun _ _ => Frame.Keeps.look.bind fun enabled _ => ?_
  refine (scheduleFree_keeps h.permits fun e he => ?_).bind fun _ _ => ?_
  · obtain rfl := of_decide_eq_true he
    exact hfree
  refine (h.permits.batch fun d hd => ?_).bind fun _ _ => ?_
  · obtain rfl := List.mem_singleton.mp hd
    exact ⟨email, _, _, hfree, rfl⟩
  refine (h.permits.touch hfree (commit_touches takenOver_touches)).bind fun _ _ => ?_
  exact h.permits.calm fun _ => engineFlush_touches

/-- An edit keeps the identity. -/
theorem mergeEdit_reads {base patch : Record} :
    F.Keeps (fun x => Bears email x.1) (mergeEdit env owner email base patch ids) := by
  refine checkInbounds_reads.bind fun _ _ => validateClientTransport_reads.bind fun _ _ => ?_
  exact ofFailure_reads.mono fun x hx => (bears_set _ _).normalizeGroup hx

/-- A row that gets a new wish. -/
theorem setManaged_writes (hfree : free email) {f : ManagedRow → ManagedRow}
    (hf : ∀ row, keepsIdentity email (f row).desired = true) :
    (writing free).Respects (setManaged email f) := by
  refine .write fun s hs => ⟨hs.update fun row _ => hf row, fun e he => ?_⟩
  refine spares_update s fun heq => ?_
  exact he (heq ▸ hfree)

/-- Storing an edit writes the row of its client only. -/
theorem storeEdit_writes (hfree : free email) {patch desired : Record}
    (hdesired : Bears email desired) :
    (writing free).Respects (storeEdit env email patch desired ids) := by
  refine permits_writing.commit (Frame.Keeps.bind (.when fun _ => ?_) fun _ _ => ?_)
  · exact permits_writing.touch hfree editClient_touches
  · exact setManaged_writes hfree fun _ => hdesired.keepsIdentity

/-- An update keeps the frame if the frame opens its client. -/
theorem update_keeps (h : Tended F free) (hopen : Opens F free email) {patch : Doc}
    {ids : Option (List ℤ)} {reconcile : Bool} :
    F.Respects (update env actor email patch ids reconcile) := by
  refine validated_reads.bind fun patch _ => checkPatch_reads.bind fun _ _ => ?_
  refine ownRow_reads.bind fun u hu => ?_
  obtain ⟨s, hs, hu⟩ := hu
  have hfree := hopen s hs (.inl ⟨u, hu⟩)
  refine Frame.Keeps.look.bind fun row _ => Frame.Keeps.demand.bind fun row _ => ?_
  refine demand_reads.bind fun _ _ => desiredBase_reads.bind fun base _ => ?_
  refine mergeEdit_reads.bind fun x hx => ?_
  refine (h.permits.calm fun _ => storeGroup_calm).bind fun _ _ => ?_
  refine checkEditCaps_reads.bind fun _ _ => ?_
  refine (h.writes (storeEdit_writes hfree hx)).bind fun _ _ => ?_
  refine (h.permits.calm fun _ => audit_touches).bind fun _ _ => ?_
  exact .when fun _ => reconcileClient_keeps h.serves hfree

/-- A plan is for a free client and keeps its identity. -/
def Plans (free : String → Prop) (plan : EditPlan) : Prop :=
  free plan.email ∧ Bears plan.email plan.desired

/-- Planning an edit keeps the frame, and the plan is for a free row. -/
theorem planEdit_reads {raw : Doc} (hopen : Opens F free (env.texts.lower (emailText raw)))
    {attach : Bool} : F.Keeps (Plans free) (planEdit env actor attach raw) := by
  refine demand_reads.bind fun _ _ => validated_reads.bind fun patch _ => ?_
  refine checkPatch_reads.bind fun _ _ => ownRow_reads.bind fun u hu => ?_
  obtain ⟨s, hs, hu⟩ := hu
  have hfree := hopen s hs (.inl ⟨u, hu⟩)
  refine Frame.Keeps.bind (.when fun _ => requireRight_reads) fun _ _ => ?_
  refine metaOf_reads.bind fun row _ => ?_
  refine demand_reads.bind fun _ _ => desiredBase_reads.bind fun base _ => ?_
  refine Frame.Keeps.check.bind fun given _ => mergeEdit_reads.bind fun x hx => ?_
  exact checkEditCaps_reads.bind fun _ _ => .pure ⟨hfree, hx⟩

/-- Planning an item keeps the frame and the plans before it. -/
theorem planItem_reads {raw : Doc} (hopen : Opens F free (env.texts.lower (emailText raw)))
    {attach : Bool} {plans : List EditPlan} (hplans : ∀ plan ∈ plans, Plans free plan) :
    F.Keeps (fun plans => ∀ plan ∈ plans, Plans free plan)
      (planItem env actor attach plans raw) := by
  refine .handle ((planEdit_reads hopen).bind fun plan hplan => .pure fun x hx => ?_)
    fun halt m' hm' => ?_
  · rcases List.mem_append.mp hx with hold | hlast
    · exact hplans x hold
    · exact List.mem_singleton.mp hlast ▸ hplan
  · split at hm'
    · cases hm'
      exact .pure hplans
    · cases hm'

/-- The policy edits of plans leave the clients that are not free. -/
theorem editPlans_writes {plans : List EditPlan} (hplans : ∀ plan ∈ plans, Plans free plan) :
    (writing free).Respects (editPlans env plans) := by
  refine .ite (fun _ => .pure trivial) fun _ => ?_
  refine onPolicy_writes (editClientsMany_atomic _ _) fun s p r hrun e he => ?_
  refine (editClientsMany_edits hrun).others e fun item hitem heq => he ?_
  obtain ⟨plan, hplan, rfl⟩ := List.mem_map.mp hitem
  have hsame : plan.email = e := by simpa using heq
  exact hsame ▸ (hplans plan (List.mem_filter.mp hplan).1).1

/-- Storing plans writes the rows that they are for. -/
theorem storePlans_writes {plans : List EditPlan} (hplans : ∀ plan ∈ plans, Plans free plan) :
    (writing free).Respects (storePlans env actor plans) := by
  refine permits_writing.commit ((editPlans_writes hplans).bind fun errors _ => ?_)
  refine Frame.Keeps.bind (.forM fun p _ => write_calm (addGroup_alike _ _)) fun _ _ => ?_
  refine Frame.Keeps.bind (.forM fun p hp => ?_) fun _ _ => ?_
  · have hplan := hplans p (List.mem_filter.mp hp).1
    exact setManaged_writes hplan.1 fun _ => hplan.2.keepsIdentity
  · exact Frame.Keeps.bind (write_calm fun s => ⟨rfl, rfl, rfl, rfl, rfl, rfl, rfl, rfl, rfl⟩)
      fun _ _ => .pure trivial

/-- An update of a batch keeps the frame if it opens all clients of the batch. -/
theorem updateBatch_keeps (h : Tended F free) {items : List Doc}
    (hopen : ∀ raw ∈ items, Opens F free (env.texts.lower (emailText raw))) {attach : Bool} :
    F.Respects (updateBatch env actor items attach) := by
  refine demand_reads.bind fun _ _ => ?_
  have hplan : F.Keeps (fun plans => ∀ plan ∈ plans, Plans free plan)
      (items.foldlM (planItem env actor attach) []) :=
    .foldlM (fun raw hraw plans hplans => planItem_reads (hopen raw hraw) hplans) fun _ hx =>
      (List.not_mem_nil hx).elim
  refine hplan.bind fun plans hplans => ?_
  refine (h.writes (storePlans_writes hplans)).bind fun staged _ => ?_
  exact .when fun _ => h.tick env true

/-! ## Destroying and recovering -/

/-- A request to remove a client touches its row only. -/
theorem requestDestruction_touches {kind : Destruction} :
    (touching email).Respects (requestDestruction email kind) := by
  refine commit_touches (Frame.Keeps.look.bind fun row _ => Frame.Keeps.demand.bind fun row _ => ?_)
  refine demand_reads.bind fun _ _ => token_touches.bind fun opId _ => ?_
  refine setManaged_touches fun row => ⟨rfl, fun hdeleted => ?_⟩
  cases kind with
  | reset => cases hdeleted
  | delete => cases hdeleted

/-- A removal keeps the frame if the frame opens its client. -/
theorem destroy_keeps (h : Serves F free) (hopen : Opens F free email) {kind : Destruction} :
    F.Respects (destroy env actor email kind) := by
  refine ownRow_reads.bind fun u hu => ?_
  obtain ⟨s, hs, hu⟩ := hu
  have hfree := hopen s hs (.inl ⟨u, hu⟩)
  refine (h.tick env false).bind fun _ _ => ?_
  refine (h.permits.touch hfree requestDestruction_touches).bind fun _ _ => ?_
  exact (h.permits.calm fun _ => audit_touches).bind fun _ _ => h.tick env true

/-- A check of who may retry keeps every frame. -/
theorem retryOwner_reads {op : PendingOp} : F.Respects (retryOwner actor email op) := by
  refine Frame.Keeps.look.bind fun u _ => ?_
  cases u with
  | none => exact Frame.Keeps.require.bind fun _ _ => .pure trivial
  | some u => exact requireRight_reads.bind fun _ _ => .pure trivial

/-- A retry keeps the frame if the frame opens its client. -/
theorem retryOperation_keeps (h : Serves F free) (hopen : Opens F free email) :
    F.Respects (retryOperation env actor email) := by
  refine metaOf_reads.bind fun row hrow => retryOwner_reads.bind fun owner _ => ?_
  refine demand_reads.bind fun _ hretry => ?_
  obtain ⟨s, hs, hrow⟩ := hrow
  have hfree : free email := by
    refine hopen s hs (.inr ⟨row, hrow, fun hdeleted => ?_⟩)
    rw [hdeleted] at hretry
    rcases hretry.2 with hstate | hstate
    · cases hstate
    · cases hstate
  have hwrite : (touching email).Respects (commit (setManaged email ManagedRow.retried)) := by
    refine commit_touches (setManaged_touches fun row => ⟨rfl, fun hdeleted => ?_⟩)
    cases hdeleted
  refine (h.permits.touch hfree hwrite).bind fun _ _ => ?_
  exact (h.permits.calm fun _ => audit_touches).bind fun _ _ => h.tick env true

/-- A request to restore a client touches its row only. -/
theorem requestRestore_touches : (touching email).Respects (requestRestore email) := by
  refine commit_touches (token_touches.bind fun opId _ => ?_)
  refine setManaged_touches fun row => ⟨rfl, fun hdeleted => ?_⟩
  cases hdeleted

/-- A restoration keeps the frame if the frame opens its client. -/
theorem restoreMissing_keeps (h : Serves F free) (hopen : Opens F free email)
    {confirmation : String} : F.Respects (restoreMissing env actor email confirmation) := by
  refine Frame.Keeps.require.bind fun _ _ => ownRow_reads.bind fun u hu => ?_
  obtain ⟨s, hs, hu⟩ := hu
  have hfree := hopen s hs (.inl ⟨u, hu⟩)
  refine metaOf_reads.bind fun row _ => demand_reads.bind fun _ _ => ?_
  refine h.permits.engineClients.bind fun records _ => demand_reads.bind fun _ _ => ?_
  refine demand_reads.bind fun _ _ => ?_
  refine (h.permits.touch hfree requestRestore_touches).bind fun _ _ => ?_
  exact (h.permits.calm fun _ => audit_touches).bind fun _ _ => h.tick env true

/-- The resolution of a reset keeps the frame if the frame opens its client. -/
theorem resolveReset_keeps (h : Serves F free) (hopen : Opens F free email)
    {confirmation : String} : F.Respects (resolveReset env actor email confirmation) := by
  refine Frame.Keeps.require.bind fun _ _ => metaOf_reads.bind fun row hrow => ?_
  refine demand_reads.bind fun _ hreset => ?_
  obtain ⟨s, hs, hrow⟩ := hrow
  have hfree : free email := by
    refine hopen s hs (.inr ⟨row, hrow, fun hdeleted => ?_⟩)
    rw [hdeleted] at hreset
    cases hreset.1
  refine h.permits.engineClients.bind fun records _ => Frame.Keeps.demand.bind fun record _ => ?_
  refine Frame.Keeps.bind (.when fun _ => h.permits.calm fun _ => remoteReset_touches) fun _ _ => ?_
  refine (h.permits.touch hfree charge_touches).bind fun _ _ => ?_
  have happlied : (touching email).Respects (commit (setManaged email ManagedRow.applied)) :=
    applied_touches (fun _ => rfl) fun _ => rfl
  refine (h.permits.touch hfree happlied).bind fun _ _ => ?_
  refine (h.permits.touch hfree completeCycle_touches).bind fun _ _ => ?_
  refine ownRow_reads.bind fun u _ => ?_
  exact (h.permits.calm fun _ => audit_touches).bind fun _ _ => h.tick env false

/-! ## Representatives -/

/-- A check of a restriction keeps every frame. -/
theorem checkRestriction_reads {texts : Texts} {allowed : List ℤ} {pref : String} {ips hwid : ℤ} :
    F.Respects (checkRestriction texts owner allowed pref ips hwid) := by
  refine Frame.Keeps.look.bind fun rows _ => demand_reads.bind fun _ _ => ?_
  exact demand_reads.bind fun _ _ => demand_reads.bind fun _ _ => demand_reads.respects

/-- Registering an owner writes no row of a client. -/
theorem registerOwner_writes {a : OwnerPut} :
    (writing free).Respects (onPolicy (registerOwner actor owner a.volumeCreditBytes
      a.unlimitedCredit a.maxClients a.manual a.quotaBytes a.uuid)) :=
  onPolicy_writes (registerOwner_atomic _ _ _ _ _ _ _ _) fun s p r hrun e _ => by
    rw [registerOwner_clients hrun]

/-- Storing a profile keeps every tended frame. -/
theorem storeProfile_keeps (h : Tended F free) {a : OwnerPut} {p : Profile} :
    F.Respects (storeProfile env actor owner a p) := by
  refine (h.writes (permits_writing.commit registerOwner_writes)).bind fun _ _ => ?_
  refine Frame.Keeps.bind (h.writes (permits_writing.commit (write_spares (fun _ => rfl)
    fun s e _ => ⟨rfl, rfl, rfl, rfl, rfl, rfl, rfl, rfl⟩))) fun _ _ => ?_
  exact (h.permits.calm fun _ => audit_touches).bind fun _ _ => h.tick env true

/-- A change of an owner keeps every tended frame. -/
theorem ownerPut_keeps (h : Tended F free) {a : OwnerPut} :
    F.Respects (ownerPut env actor owner a) := by
  refine Frame.Keeps.require.bind fun _ _ => demand_reads.bind fun _ _ => ?_
  refine demand_reads.bind fun _ _ => demand_reads.bind fun _ _ => ?_
  refine ofFailure_reads.bind fun ips _ => ofFailure_reads.bind fun hwid _ => ?_
  refine Frame.Keeps.look.bind fun known _ => demand_reads.bind fun _ _ => ?_
  exact checkRestriction_reads.bind fun _ _ => storeProfile_keeps h

end Writing

/-! ## Commands -/

/-- The clients that a command names. -/
def Command.names (env : Setting) : Command → List String
  | .update _ email _ _ _ => [email]
  | .updateBatch _ items _ => items.map fun raw => env.texts.lower (emailText raw)
  | .destroy _ email _ => [email]
  | .retryOperation _ email => [email]
  | .restoreMissing _ email _ => [email]
  | .resolveReset _ email _ => [email]
  | .ownerPut _ _ _ => []
  | .create _ _ _ _ _ => []
  | .createBatch _ _ _ _ => []
  | .adopt _ _ _ => []
  | .tick _ => []
  | .start => []

/-- A command keeps a frame about clients if it does not find those that it names. -/
theorem Command.keeps {F : Frame Panel} {free : String → Prop} (h : Tended F free)
    (env : Setting) (command : Command) (hopen : ∀ e ∈ command.names env, Opens F free e) :
    F.Respects (command.run env) := by
  cases command with
  | ownerPut actor owner a => exact ownerPut_keeps h
  | create actor owner client ids duration => exact create_keeps h
  | createBatch actor owner clients ids => exact createBatch_keeps h
  | adopt actor owner email => exact adopt_keeps h
  | update actor email patch ids reconcile =>
      exact update_keeps h (hopen email List.mem_cons_self)
  | updateBatch actor items attach =>
      exact updateBatch_keeps h fun raw hraw => hopen _ (List.mem_map_of_mem hraw)
  | destroy actor email kind => exact destroy_keeps h.serves (hopen email List.mem_cons_self)
  | tick suppress => exact h.tick env suppress
  | retryOperation actor email =>
      exact retryOperation_keeps h.serves (hopen email List.mem_cons_self)
  | restoreMissing actor email confirmation =>
      exact restoreMissing_keeps h.serves (hopen email List.mem_cons_self)
  | resolveReset actor email confirmation =>
      exact resolveReset_keeps h.serves (hopen email List.mem_cons_self)
  | start => exact h.start

end Management
end DarkXray
