import DarkXray.Core.Store
import DarkXray.Library.Preconditions
import Mathlib.Data.List.Dedup
import Mathlib.Data.List.Sort

/-!
# The clients of the core engine

{lit}`CoreEngine` keeps a row for every client: its record, its inbounds and its counters.  The
manager writes an edit either client by client, with {lit}`create` or with {lit}`update`,
{lit}`attach` and {lit}`detach`, or for many clients at once, with {lit}`upsert_many`.  The rows
of {lit}`managed_clients` that the manager writes around these calls are not part of the core.

Main results:

- Theorem {lit}`applyUpsert_ok`: what the calls for one client write together.
- Theorem {lit}`upsertMany_ok`: what a batch writes.
- Theorem {lit}`upsertMany_refuses`: a batch with an invalid item raises and writes nothing.
- Theorem {lit}`upsertMany_refines`: the batch and the calls one by one agree.
-/

namespace DarkXray
namespace Core

open Library

/-! ## Records -/

/-- A JSON object. -/
structure Record where
  doc : Doc
  isDict : doc.isDict = true

namespace Record

/-- A document that is an object. -/
def ofDoc? (d : Doc) : Option Record :=
  if h : d.isDict = true then some ⟨d, h⟩ else none

/-- The record with one field assigned. -/
def set (r : Record) (key : String) (v : Doc) : Record :=
  ⟨r.doc.set key v, by rw [Doc.isDict_set, r.isDict]⟩

/-- {lit}`dict.update`. -/
def update (r patch : Record) : Record :=
  ⟨r.doc.update patch.doc, by rw [Doc.isDict_update, r.isDict]⟩

end Record

/-- The keys that the engine adds to a record when it is read. -/
def derivedKeys : List String :=
  ["inboundIds", "traffic", "usedTraffic", "owner", "engineStatus"]

/-- {lit}`CoreEngine.writable`. -/
def writable (record : Record) : Record :=
  ⟨record.doc.without derivedKeys, by rw [Doc.isDict_without, record.isDict]⟩

/-- {lit}`EMAIL_RE.fullmatch`. -/
def emailRe (s : String) : Bool :=
  1 ≤ s.length && s.length ≤ 128 && s.toList.all nodeChar

/-! ## The engine -/

/-- A row of {lit}`core_clients`. -/
structure ClientRow where
  body : Record
  inbounds : List ℤ
  up : ℕ
  down : ℕ

/-- What the client operations of the engine read and write. -/
structure ClientStore where
  writesEnabled : Bool
  inboundIds : List ℤ
  clients : Table String ClientRow

/-- Calls of the engine. -/
abbrev EngineCall (α : Type) : Type :=
  Tx ClientStore Fault α

/-- {lit}`CoreEngine._write`. -/
def engineWrite : EngineCall Unit := do
  let enabled ← Tx.read ClientStore.writesEnabled
  Tx.require (enabled = true) (.coreError "Local writes disabled" 409)

/-- {lit}`CoreEngine.client_detail`. -/
def clientDetail (email : String) : EngineCall ClientRow := do
  let row ← Tx.read fun s => s.clients.get? email
  Tx.demand row (.coreError "Core client not found" 404)

/-- {lit}`client.get('email','')` as an argument of {lit}`fullmatch`. -/
def identityText (client : Record) : Except Fault String :=
  match client.doc.get? "email" with
  | none => .ok ""
  | some v => v.str?.elim (.error (.raised "TypeError")) .ok

/-- {lit}`client.get('email',email)==email`. -/
def keepsIdentity (email : String) (client : Record) : Bool :=
  (client.doc.get? "email").elim true fun v => v.str? = some email

/-- {lit}`sorted(set(ids))`. -/
def sortedSet (ids : List ℤ) : List ℤ :=
  ids.dedup.insertionSort (· ≤ ·)

/-- Change the row of a client, as one transaction. -/
def writeClient (email : String) (f : ClientRow → ClientRow) : EngineCall Unit :=
  Tx.transaction (Tx.write fun s => { s with clients := s.clients.update email f })

/-- {lit}`CoreEngine.create`: the record is stored as it is. -/
def create (client : Record) (inbounds : List ℤ) : EngineCall Unit := do
  engineWrite
  let email ← Tx.ofExcept (identityText client)
  Tx.require (emailRe email = true) (coreError "Invalid identity")
  let known ← Tx.read ClientStore.inboundIds
  Tx.require (inbounds ⊆ known) (coreError "Unknown inbound")
  Tx.transaction do
    let old ← Tx.read fun s => s.clients.get? email
    Tx.require (old.isNone = true) (.raised "IntegrityError")
    Tx.write fun s => { s with clients := s.clients.insert email ⟨client, inbounds, 0, 0⟩ }

/-- {lit}`CoreEngine.update`. -/
def update (email : String) (client : Record) : EngineCall Unit := do
  engineWrite
  let old ← clientDetail email
  Tx.require (keepsIdentity email client = true) (coreError "Identity cannot change")
  let body := (old.body.update (writable client)).set "email" (.str email)
  writeClient email fun row => { row with body := body }

/-- {lit}`CoreEngine.attach`. -/
def attach (email : String) (ids : List ℤ) : EngineCall Unit := do
  engineWrite
  let d ← clientDetail email
  let vals := sortedSet (d.inbounds ++ ids)
  let known ← Tx.read ClientStore.inboundIds
  Tx.require (vals ⊆ known) (coreError "Unknown inbound")
  writeClient email fun row => { row with inbounds := vals }

/-- {lit}`CoreEngine.detach`. -/
def detach (email : String) (ids : List ℤ) : EngineCall Unit := do
  engineWrite
  let d ← clientDetail email
  let vals := sortedSet (d.inbounds.filter (· ∉ ids))
  Tx.require (vals ≠ []) (coreError "A customer must retain an inbound")
  writeClient email fun row => { row with inbounds := vals }

/-! ## A batch -/

/-- A client with its inbounds, as an item of a batch names them. -/
structure BatchItem where
  email : String
  client : Record
  inbounds : List ℤ

/-- An item with the body that it gets. -/
structure Prepared where
  email : String
  body : Record
  inbounds : List ℤ

/-- The identity of an item. -/
def identityOf (seen : List String) (raw : Doc) : Except Fault String := do
  check raw.isDict "Invalid core batch item"
  let email ← insist ((raw.get? "email").bind Doc.str?) "Invalid or duplicate core batch identity"
  check (emailRe email && email ∉ seen) "Invalid or duplicate core batch identity"
  return email

/-- The first loop of {lit}`upsert_many`. -/
def identitiesOf (seen : List String) : List Doc → Except Fault (List String)
  | [] => .ok []
  | raw :: items => do
      let email ← identityOf seen raw
      let requested ← identitiesOf (email :: seen) items
      return email :: requested

/-- The body that a batch gives to a client. -/
def upsertedBody (email : String) (existing : Option ClientRow) (client : Record) : Record :=
  (existing.elim (writable client) fun row => row.body.update (writable client)).set
    "email" (.str email)

/-- The checks of {lit}`upsert_many` on one item. -/
def prepareItem (known : List ℤ) (rows : Table String ClientRow) (seen : List String)
    (raw : Doc) : Except Fault Prepared := do
  let email ← identityOf seen raw
  let client ← insist ((raw.get? "client").bind Record.ofDoc?) "Invalid core batch payload"
  let values ← insist ((raw.get? "inbounds").bind Doc.list?) "Invalid core batch payload"
  check (!values.isEmpty) "Invalid core batch payload"
  let inbounds ← insist (values.mapM Doc.int?) "Unknown inbound"
  check ((∀ i ∈ inbounds, 1 ≤ i) ∧ inbounds.Nodup ∧ inbounds ⊆ known) "Unknown inbound"
  check (keepsIdentity email client) "Identity cannot change"
  return ⟨email, upsertedBody email (rows.get? email) client, inbounds⟩

/-- The second loop of {lit}`upsert_many`. -/
def prepare (known : List ℤ) (rows : Table String ClientRow) (seen : List String) :
    List Doc → Except Fault (List Prepared)
  | [] => .ok []
  | raw :: items => do
      let p ← prepareItem known rows seen raw
      let ps ← prepare known rows (p.email :: seen) items
      return p :: ps

/-- Write one item: the counters of a stored row stay. -/
def writePrepared (t : Table String ClientRow) (p : Prepared) : Table String ClientRow :=
  t.upsert p.email ⟨p.body, p.inbounds, 0, 0⟩ fun row =>
    { row with body := p.body, inbounds := p.inbounds }

/-- {lit}`CoreEngine.upsert_many`. -/
def upsertMany (items : List Doc) : EngineCall ℕ := do
  engineWrite
  Tx.require (items ≠ [] ∧ items.length ≤ 500) (coreError "Core batch upsert requires 1..500 clients")
  let known ← Tx.read ClientStore.inboundIds
  let _ ← Tx.ofExcept (identitiesOf [] items)
  let rows ← Tx.read ClientStore.clients
  let prepared ← Tx.ofExcept (prepare known rows [] items)
  Tx.transaction (Tx.write fun s => { s with clients := prepared.foldl writePrepared s.clients })
  return prepared.length

/-! ## One by one -/

/-- {lit}`existing.get('subId')==desired.get('subId')`. -/
def sameSubId (existing desired : Record) : Bool :=
  match existing.doc.get? "subId", desired.doc.get? "subId" with
  | none, none => true
  | none, some d => d.same (.atom .null)
  | some d, none => d.same (.atom .null)
  | some d, some d' => d.same d'

/-- The calls of {lit}`Manager._apply` for an edit. -/
def applyUpsert (existing : Option ClientRow) (x : BatchItem) : EngineCall Unit :=
  match existing with
  | none => create x.client x.inbounds
  | some record => do
      Tx.require (sameSubId record.body x.client = true) (.coreError
        "Identity conflict: engine subId changed; explicit re-adoption is required" 409)
      update x.email x.client
      Tx.when (∃ i ∈ x.inbounds, i ∉ record.inbounds)
        (attach x.email (sortedSet (x.inbounds.filter (· ∉ record.inbounds))))
      Tx.when (∃ i ∈ record.inbounds, i ∉ x.inbounds)
        (detach x.email (sortedSet (record.inbounds.filter (· ∉ x.inbounds))))

/-- The edits one after the other, with the records that were read before. -/
def applyAll (records : Table String ClientRow) (xs : List BatchItem) : EngineCall Unit :=
  xs.forM fun x => applyUpsert (records.get? x.email) x

/-! ## What is valid -/

/-- A raw item names these values. -/
structure BatchItem.Reads (raw : Doc) (x : BatchItem) : Prop where
  email : raw.get? "email" = some (.str x.email)
  client : raw.get? "client" = some x.client.doc
  inbounds : raw.get? "inbounds" = some (.list (x.inbounds.map Doc.int))

/-- An item that a batch accepts: a valid identity that its client keeps, and known inbounds. -/
structure BatchItem.Checked (known : List ℤ) (x : BatchItem) : Prop where
  email : emailRe x.email = true
  nonempty : x.inbounds ≠ []
  positive : ∀ i ∈ x.inbounds, 1 ≤ i
  nodup : x.inbounds.Nodup
  known : x.inbounds ⊆ known
  kept : keepsIdentity x.email x.client = true

/-- An item as the manager makes them.  The record of a new client names its identity and has no
key that the engine derives; a stored client is the same one, and if it is to be attached, its
inbounds are known. -/
structure BatchItem.Managed (s : ClientStore) (x : BatchItem) : Prop
    extends x.Checked s.inboundIds where
  named : s.clients.get? x.email = none → x.client.doc.get? "email" = some (.str x.email)
  plain : s.clients.get? x.email = none → ∀ key ∈ derivedKeys, x.client.doc.get? key = none
  sameSubId : ∀ r, s.clients.get? x.email = some r → sameSubId r.body x.client = true
  storedKnown : ∀ r, s.clients.get? x.email = some r →
    (∃ i ∈ x.inbounds, i ∉ r.inbounds) → r.inbounds ⊆ s.inboundIds

/-- Two rows with the same body, the same set of inbounds and the same counters. -/
structure ClientRow.Alike (a b : ClientRow) : Prop where
  body : a.body = b.body
  inbounds : ∀ i, i ∈ a.inbounds ↔ i ∈ b.inbounds
  up : a.up = b.up
  down : a.down = b.down

/-! ## Sets of inbounds -/

@[simp]
theorem mem_sortedSet {ids : List ℤ} {i : ℤ} : i ∈ sortedSet ids ↔ i ∈ ids := by
  simp [sortedSet]

theorem mapM_int? (ids : List ℤ) : (ids.map Doc.int).mapM Doc.int? = some ids := by
  induction ids with
  | nil => rfl
  | cons i ids ih => simp [List.mapM_cons, ih, Doc.int, Doc.int?]

theorem eq_map_of_mapM_int? {values : List Doc} {ids : List ℤ}
    (h : values.mapM Doc.int? = some ids) : values = ids.map Doc.int := by
  induction values generalizing ids with
  | nil =>
      have hnil : ids = [] := by simpa [eq_comm] using h
      simp [hnil]
  | cons v values ih =>
      rw [List.mapM_cons] at h
      cases hv : v.int? with
      | none => simp [hv] at h
      | some i =>
          cases hvs : values.mapM Doc.int? with
          | none => simp [hv, hvs] at h
          | some is =>
              have hids : ids = i :: is := by simpa [hv, hvs, eq_comm] using h
              have hint : v = Doc.int i := by
                cases v with
                | atom a => cases a <;> simp_all [Doc.int?, Doc.int]
                | list items => simp [Doc.int?] at hv
                | dict fields => simp [Doc.int?] at hv
              rw [hids, List.map_cons, ← ih hvs, hint]

/-! ## What a batch checks -/

section Batches

variable {known : List ℤ} {rows : Table String ClientRow} {seen : List String} {raw : Doc}
  {items : List Doc} {x : BatchItem} {xs : List BatchItem} {s : ClientStore}

/-- The values that an item of a batch gets. -/
def BatchItem.prepared (rows : Table String ClientRow) (x : BatchItem) : Prepared :=
  ⟨x.email, upsertedBody x.email (rows.get? x.email) x.client, x.inbounds⟩

theorem bind_ofDoc?_iff {field : Option Doc} {r : Record} :
    field.bind Record.ofDoc? = some r ↔ field = some r.doc := by
  cases field with
  | none => simp
  | some d =>
      simp only [Option.bind_some, Record.ofDoc?, Option.some.injEq]
      constructor
      · intro h
        split at h
        · rw [← Option.some.inj h]
        · cases h
      · intro h
        subst h
        rw [dif_pos r.isDict]

/-- The identity of an item is read exactly when it is valid and new. -/
theorem identityOf_ok_iff {email : String} : identityOf seen raw = .ok email ↔
    raw.get? "email" = some (.str email) ∧ emailRe email = true ∧ email ∉ seen := by
  simp only [identityOf, except_bind_ok_iff, check_ok_iff, insist_ok_iff, Doc.bind_str?_iff,
    except_pure_ok_iff, exists_const, Bool.and_eq_true, decide_eq_true_eq]
  constructor
  · rintro ⟨-, t, hread, hvalid, rfl⟩
    exact And.intro hread hvalid
  · intro h
    exact ⟨Doc.isDict_of_get? h.1, email, h.1, h.2, rfl⟩

/-- An item passes the checks exactly when it names valid values with a new identity. -/
theorem prepareItem_ok_iff {p : Prepared} : prepareItem known rows seen raw = .ok p ↔
    ∃ x, BatchItem.Reads raw x ∧ x.Checked known ∧ x.email ∉ seen ∧ p = x.prepared rows := by
  simp only [prepareItem, except_bind_ok_iff, identityOf_ok_iff, check_ok_iff, insist_ok_iff,
    Doc.bind_list?_iff, bind_ofDoc?_iff, except_pure_ok_iff, exists_const, decide_eq_true_eq,
    Bool.not_eq_true', List.isEmpty_eq_false_iff]
  constructor
  · rintro ⟨email, ⟨hemail, hvalid, hnew⟩, client, hclient, values, hvalues, hne, ids, hids,
      ⟨hpos, hnodup, hknown⟩, hkept, rfl⟩
    have hmap := eq_map_of_mapM_int? hids
    refine ⟨⟨email, client, ids⟩, ⟨hemail, hclient, hmap ▸ hvalues⟩,
      ⟨hvalid, ?_, hpos, hnodup, hknown, hkept⟩, hnew, rfl⟩
    intro hnil
    change ids = [] at hnil
    exact hne (by rw [hmap, hnil]; rfl)
  · rintro ⟨x, hreads, hchecked, hnew, rfl⟩
    refine ⟨x.email, ⟨hreads.email, hchecked.email, hnew⟩, x.client, hreads.client, _,
      hreads.inbounds, ?_, x.inbounds, mapM_int? _,
      ⟨hchecked.positive, hchecked.nodup, hchecked.known⟩, hchecked.kept, rfl⟩
    simpa using hchecked.nonempty

/-- The second loop passes exactly when all items name valid values with distinct identities. -/
theorem prepare_ok_iff {ps : List Prepared} : prepare known rows seen items = .ok ps ↔
    ∃ xs, List.Forall₂ BatchItem.Reads items xs ∧ (∀ x ∈ xs, x.Checked known) ∧
      (xs.map BatchItem.email).Nodup ∧ (∀ x ∈ xs, x.email ∉ seen) ∧
      ps = xs.map (BatchItem.prepared rows) := by
  induction items generalizing seen ps with
  | nil =>
      constructor
      · intro h
        exact ⟨[], .nil, by simp, by simp, by simp, by simpa [prepare, eq_comm] using h⟩
      · rintro ⟨xs, hreads, -, -, -, rfl⟩
        cases hreads
        rfl
  | cons raw items ih =>
      simp only [prepare, except_bind_ok_iff, prepareItem_ok_iff, ih, except_pure_ok_iff]
      constructor
      · rintro ⟨p, ⟨x, hreads, hchecked, hnew, rfl⟩, qs, ⟨xs, hrest, hall, hnodup, hseen, rfl⟩, rfl⟩
        have hx : ∀ y ∈ xs, y.email ≠ x.email ∧ y.email ∉ seen := by
          intro y hy
          simpa [BatchItem.prepared] using hseen y hy
        refine ⟨x :: xs, .cons hreads hrest, ?_, ?_, ?_, rfl⟩
        · simpa [List.forall_mem_cons] using ⟨hchecked, hall⟩
        · rw [List.map_cons, List.nodup_cons]
          refine ⟨?_, hnodup⟩
          rw [List.mem_map]
          rintro ⟨y, hy, hsame⟩
          exact (hx y hy).1 hsame
        · simpa [List.forall_mem_cons] using ⟨hnew, fun y hy => (hx y hy).2⟩
      · rintro ⟨ys, hreads, hall, hnodup, hseen, rfl⟩
        cases hreads with
        | cons hhead htail =>
            rename_i x xs
            rw [List.map_cons, List.nodup_cons] at hnodup
            refine ⟨_, ⟨x, hhead, hall x (by simp), hseen x (by simp), rfl⟩, _,
              ⟨xs, htail, fun y hy => hall y (by simp [hy]), hnodup.2, ?_, rfl⟩, rfl⟩
            intro y hy hmem
            rcases List.mem_cons.mp hmem with hsame | hold
            · exact hnodup.1 (List.mem_map.mpr ⟨y, hy, hsame⟩)
            · exact hseen y (by simp [hy]) hold

/-- The first loop passes on what the second one passes on. -/
theorem identitiesOf_ok {ps : List Prepared} (h : prepare known rows seen items = .ok ps) :
    ∃ es, identitiesOf seen items = .ok es := by
  induction items generalizing seen ps with
  | nil => exact ⟨[], rfl⟩
  | cons raw items ih =>
      simp only [prepare, except_bind_ok_iff, prepareItem_ok_iff] at h
      obtain ⟨p, ⟨x, hreads, hchecked, hnew, rfl⟩, qs, hrest, -⟩ := h
      obtain ⟨es, hes⟩ := ih hrest
      refine ⟨x.email :: es, ?_⟩
      rw [identitiesOf, except_bind_ok_iff]
      refine ⟨x.email, identityOf_ok_iff.mpr ⟨hreads.email, hchecked.email, hnew⟩, ?_⟩
      rw [except_bind_ok_iff]
      exact ⟨es, hes, rfl⟩

/-- The engine writes when the configuration lets it. -/
theorem engineWrite_ok_iff {u : Unit} {t : ClientStore} :
    engineWrite s = (.ok u, t) ↔ s.writesEnabled = true ∧ s = t := by
  unfold engineWrite
  rw [Tx.read_bind, Tx.require_ok_iff]

theorem engineWrite_bind_iff {α : Type} {k : Unit → EngineCall α} {a : α} {t : ClientStore} :
    (engineWrite >>= k) s = (.ok a, t) ↔ s.writesEnabled = true ∧ k () s = (.ok a, t) := by
  simp only [Tx.bind_ok_iff, engineWrite_ok_iff]
  constructor
  · rintro ⟨u, _, ⟨hwrites, rfl⟩, h⟩
    exact ⟨hwrites, h⟩
  · rintro ⟨hwrites, h⟩
    exact ⟨(), s, ⟨hwrites, rfl⟩, h⟩

/-- A transaction that only writes returns and has written. -/
theorem written_bind_iff {α : Type} {f : ClientStore → ClientStore} {k : Unit → EngineCall α}
    {a : α} {t : ClientStore} :
    (Tx.transaction (Tx.write f) >>= k) s = (.ok a, t) ↔ k () (f s) = (.ok a, t) :=
  Iff.rfl

/-- A batch that returns has prepared all its items and wrote all of them. -/
theorem upsertMany_ok_iff {n : ℕ} {t : ClientStore} : upsertMany items s = (.ok n, t) ↔
    s.writesEnabled = true ∧ (items ≠ [] ∧ items.length ≤ 500) ∧
      ∃ ps, prepare s.inboundIds s.clients [] items = .ok ps ∧ ps.length = n ∧
        { s with clients := ps.foldl writePrepared s.clients } = t := by
  unfold upsertMany
  simp only [engineWrite_bind_iff, Tx.require_bind_iff, Tx.read_bind, Tx.ofExcept_bind_iff,
    written_bind_iff, Tx.pure_ok_iff]
  constructor
  · rintro ⟨hwrites, hlength, es, -, hrest⟩
    exact ⟨hwrites, hlength, hrest⟩
  · rintro ⟨hwrites, hlength, ps, hps, hrest⟩
    obtain ⟨es, hes⟩ := identitiesOf_ok hps
    exact ⟨hwrites, hlength, es, hes, ps, hps, hrest⟩

/-- A batch that raises writes nothing. -/
theorem upsertMany_error {e : Fault} {t : ClientStore} (h : upsertMany items s = (.error e, t)) :
    t = s := by
  have hwp : Tx.wp (upsertMany items) (fun _ _ => True) (fun _ t => t = s) s := by
    unfold upsertMany engineWrite
    simp only [Tx.wp_bind, Tx.wp_read, Tx.wp_require, Tx.wp_ofExcept, Tx.wp_transaction,
      Tx.wp_write, Tx.wp_pure]
    grind
  have hsame := Tx.wp_error hwp h
  exact hsame

end Batches

/-! ## What the single calls write -/

/-- A call wrote this row for a client and nothing else. -/
structure Writes (email : String) (row : ClientRow) (s t : ClientStore) : Prop where
  writesEnabled : t.writesEnabled = s.writesEnabled
  inboundIds : t.inboundIds = s.inboundIds
  clients : ∀ e, t.clients.get? e = if e = email then some row else s.clients.get? e

section Calls

variable {email : String} {row row' : ClientRow} {client : Record} {ids : List ℤ}
  {s t u : ClientStore} {x : BatchItem}

/-- The later of two writes of a row counts. -/
theorem Writes.trans (h : Writes email row s t) (h' : Writes email row' t u) :
    Writes email row' s u where
  writesEnabled := h'.writesEnabled.trans h.writesEnabled
  inboundIds := h'.inboundIds.trans h.inboundIds
  clients := by
    intro e
    rw [h'.clients, h.clients]
    split <;> rfl

theorem Writes.self (h : Writes email row s t) : t.clients.get? email = some row := by
  rw [h.clients, if_pos rfl]

theorem clientDetail_bind_iff {α : Type} {k : ClientRow → EngineCall α} {a : α} :
    (clientDetail email >>= k) s = (.ok a, t) ↔
      ∃ row, s.clients.get? email = some row ∧ k row s = (.ok a, t) := by
  unfold clientDetail
  simp only [Tx.bind_ok_iff, Tx.read_bind]
  cases s.clients.get? email with
  | none => simp [Tx.demand]
  | some row => simp [Tx.demand, Tx.pure_ok_iff]

/-- Writing a changed row. -/
theorem writeClient_writes (hrow : s.clients.get? email = some row) (f : ClientRow → ClientRow) :
    ∃ t, writeClient email f s = (.ok (), t) ∧ Writes email (f row) s t := by
  refine ⟨_, rfl, rfl, rfl, ?_⟩
  intro e
  rw [Table.get?_update]
  split <;> rename_i he
  · rw [he, hrow, Option.map_some]
  · rfl

/-- {lit}`update` merges the writable fields of the client into the record. -/
theorem update_writes (hwrites : s.writesEnabled = true) (hrow : s.clients.get? email = some row)
    (hkept : keepsIdentity email client = true) :
    ∃ t, update email client s = (.ok (), t) ∧
      Writes email { row with body := upsertedBody email (some row) client } s t := by
  obtain ⟨t, ht, hdoes⟩ := writeClient_writes hrow fun r =>
    { r with body := upsertedBody email (some row) client }
  refine ⟨t, ?_, hdoes⟩
  simp only [update, engineWrite_bind_iff, clientDetail_bind_iff, Tx.require_bind_iff]
  exact ⟨hwrites, row, hrow, hkept, ht⟩

/-- {lit}`attach` adds inbounds if all of the union are known. -/
theorem attach_writes (hwrites : s.writesEnabled = true) (hrow : s.clients.get? email = some row)
    (hknown : sortedSet (row.inbounds ++ ids) ⊆ s.inboundIds) :
    ∃ t, attach email ids s = (.ok (), t) ∧
      Writes email { row with inbounds := sortedSet (row.inbounds ++ ids) } s t := by
  obtain ⟨t, ht, hdoes⟩ := writeClient_writes hrow fun r =>
    { r with inbounds := sortedSet (row.inbounds ++ ids) }
  refine ⟨t, ?_, hdoes⟩
  simp only [attach, engineWrite_bind_iff, clientDetail_bind_iff, Tx.require_bind_iff,
    Tx.read_bind]
  exact ⟨hwrites, row, hrow, hknown, ht⟩

/-- {lit}`detach` removes inbounds if one remains. -/
theorem detach_writes (hwrites : s.writesEnabled = true) (hrow : s.clients.get? email = some row)
    (hremain : sortedSet (row.inbounds.filter (· ∉ ids)) ≠ []) :
    ∃ t, detach email ids s = (.ok (), t) ∧
      Writes email { row with inbounds := sortedSet (row.inbounds.filter (· ∉ ids)) } s t := by
  obtain ⟨t, ht, hdoes⟩ := writeClient_writes hrow fun r =>
    { r with inbounds := sortedSet (row.inbounds.filter (· ∉ ids)) }
  refine ⟨t, ?_, hdoes⟩
  simp only [detach, engineWrite_bind_iff, clientDetail_bind_iff, Tx.require_bind_iff]
  exact ⟨hwrites, row, hrow, hremain, ht⟩

/-- {lit}`create` stores the record of a new client as it is. -/
theorem create_writes (hwrites : s.writesEnabled = true) (hnew : s.clients.get? email = none)
    (hnamed : client.doc.get? "email" = some (.str email)) (hvalid : emailRe email = true)
    (hknown : ids ⊆ s.inboundIds) :
    ∃ t, create client ids s = (.ok (), t) ∧ Writes email ⟨client, ids, 0, 0⟩ s t := by
  have hidentity : identityText client = .ok email := by
    simp [identityText, hnamed, Doc.str, Doc.str?]
  refine ⟨{ s with clients := s.clients.insert email ⟨client, ids, 0, 0⟩ }, ?_, rfl, rfl,
    fun e => Table.get?_insert hnew _ e⟩
  simp only [create, engineWrite_bind_iff, Tx.ofExcept_bind_iff, Tx.require_bind_iff,
    Tx.read_bind, Tx.transaction_ok_iff]
  refine ⟨hwrites, email, hidentity, hvalid, hknown, ?_, rfl⟩
  rw [hnew]
  rfl

/-- The row that an edit gives to a client. -/
def writtenRow (old : Option ClientRow) (x : BatchItem) : ClientRow where
  body := upsertedBody x.email old x.client
  inbounds := x.inbounds
  up := old.elim 0 ClientRow.up
  down := old.elim 0 ClientRow.down

/-- The body of a new client is its record. -/
theorem upsertedBody_new (h : x.Managed s) (hnew : s.clients.get? x.email = none) :
    upsertedBody x.email none x.client = x.client := by
  have hdoc : (x.client.doc.without derivedKeys).set "email" (.str x.email) = x.client.doc := by
    rw [Doc.without_of_absent (h.plain hnew), Doc.set_of_get? (h.named hnew)]
  simp only [upsertedBody, Option.elim_none, writable, Record.set, hdoc]

/-- Leaving a row as it is. -/
theorem Writes.refl (hrow : s.clients.get? email = some row) : Writes email row s s where
  writesEnabled := rfl
  inboundIds := rfl
  clients := by
    intro e
    split <;> rename_i he
    · rw [he, hrow]
    · rfl

/-- The inbounds that a client lacks are attached. -/
theorem attach_missing (want : List ℤ) (hwrites : s.writesEnabled = true)
    (hrow : s.clients.get? email = some row) (hknown : want ⊆ s.inboundIds)
    (hstored : (∃ i ∈ want, i ∉ row.inbounds) → row.inbounds ⊆ s.inboundIds) :
    ∃ t vals, Tx.when (∃ i ∈ want, i ∉ row.inbounds)
        (attach email (sortedSet (want.filter (· ∉ row.inbounds)))) s = (.ok (), t) ∧
      Writes email { row with inbounds := vals } s t ∧
      ∀ i, i ∈ vals ↔ i ∈ row.inbounds ∨ i ∈ want := by
  by_cases hmissing : ∃ i ∈ want, i ∉ row.inbounds
  · rw [Tx.when, if_pos hmissing]
    have hunion : sortedSet (row.inbounds ++ sortedSet (want.filter (· ∉ row.inbounds))) ⊆
        s.inboundIds := by
      intro i hi
      simp only [mem_sortedSet, List.mem_append, List.mem_filter] at hi
      exact hi.elim (fun h => hstored hmissing h) fun h => hknown h.1
    obtain ⟨t, ht, hdoes⟩ := attach_writes hwrites hrow hunion
    refine ⟨t, _, ht, hdoes, ?_⟩
    intro i
    simp only [mem_sortedSet, List.mem_append, List.mem_filter, decide_eq_true_eq]
    tauto
  · rw [Tx.when, if_neg hmissing]
    refine ⟨s, row.inbounds, rfl, Writes.refl hrow, ?_⟩
    intro i
    simp only [not_exists, not_and, not_not] at hmissing
    exact ⟨Or.inl, fun h => h.elim id (hmissing i)⟩

/-- The inbounds that a client is to lose are detached. -/
theorem detach_extra {want actual : List ℤ} (hne : want ≠ []) (hwrites : s.writesEnabled = true)
    (hrow : s.clients.get? email = some row)
    (hinbounds : ∀ i, i ∈ row.inbounds ↔ i ∈ actual ∨ i ∈ want) :
    ∃ t vals, Tx.when (∃ i ∈ actual, i ∉ want)
        (detach email (sortedSet (actual.filter (· ∉ want)))) s = (.ok (), t) ∧
      Writes email { row with inbounds := vals } s t ∧ ∀ i, i ∈ vals ↔ i ∈ want := by
  by_cases hextra : ∃ i ∈ actual, i ∉ want
  · rw [Tx.when, if_pos hextra]
    have hmem : ∀ i, i ∈ sortedSet (row.inbounds.filter
        (· ∉ sortedSet (actual.filter (· ∉ want)))) ↔ i ∈ want := by
      intro i
      simp only [mem_sortedSet, List.mem_filter, decide_eq_true_eq, hinbounds]
      tauto
    have hremain : sortedSet (row.inbounds.filter
        (· ∉ sortedSet (actual.filter (· ∉ want)))) ≠ [] := by
      obtain ⟨i, hi⟩ := List.exists_mem_of_ne_nil want hne
      exact List.ne_nil_of_mem ((hmem i).mpr hi)
    obtain ⟨t, ht, hdoes⟩ := detach_writes hwrites hrow hremain
    exact ⟨t, _, ht, hdoes, hmem⟩
  · rw [Tx.when, if_neg hextra]
    refine ⟨s, row.inbounds, rfl, Writes.refl hrow, ?_⟩
    intro i
    simp only [not_exists, not_and, not_not] at hextra
    rw [hinbounds]
    exact ⟨fun h => h.elim (hextra i) id, Or.inr⟩

/-- The calls for one client write the row that a batch gives it, up to the order of the
inbounds. -/
theorem applyUpsert_ok (hwrites : s.writesEnabled = true) (h : x.Managed s) :
    ∃ t row, applyUpsert (s.clients.get? x.email) x s = (.ok (), t) ∧ Writes x.email row s t ∧
      row.Alike (writtenRow (s.clients.get? x.email) x) := by
  cases hold : s.clients.get? x.email with
  | none =>
      obtain ⟨t, ht, hdoes⟩ := create_writes hwrites hold (h.named hold) h.email h.known
      refine ⟨t, _, ht, hdoes, ?_, fun _ => Iff.rfl, rfl, rfl⟩
      exact (upsertedBody_new h hold).symm
  | some record =>
      obtain ⟨s₁, hs₁, hupdate⟩ := update_writes hwrites hold h.kept
      have hstored : (∃ i ∈ x.inbounds, i ∉ record.inbounds) →
          record.inbounds ⊆ s₁.inboundIds := by
        rw [hupdate.inboundIds]
        exact h.storedKnown record hold
      obtain ⟨s₂, vals, hs₂, hattach, hunion⟩ := attach_missing x.inbounds
        (hupdate.writesEnabled.trans hwrites) hupdate.self
        (hupdate.inboundIds.symm ▸ h.known) hstored
      have hwrites₂ : s₂.writesEnabled = true :=
        (hattach.writesEnabled.trans hupdate.writesEnabled).trans hwrites
      obtain ⟨t, vals', ht, hdetach, hwant⟩ :=
        detach_extra h.nonempty hwrites₂ hattach.self hunion
      refine ⟨t, _, ?_, (hupdate.trans hattach).trans hdetach, rfl, hwant, rfl, rfl⟩
      simp only [applyUpsert, Tx.require_bind_iff]
      refine ⟨h.sameSubId record hold, ?_⟩
      rw [Tx.bind_ok_iff]
      refine ⟨(), s₁, hs₁, ?_⟩
      rw [Tx.bind_ok_iff]
      exact ⟨(), s₂, hs₂, ht⟩

end Calls

/-! ## Both ways agree -/

section Refinement

variable {s : ClientStore} {xs : List BatchItem} {items : List Doc}

/-- What a list of edits with distinct identities must leave: the rows of its clients are the
written ones, up to the order of the inbounds, and no other row changes. -/
structure Leaves (xs : List BatchItem) (s t : ClientStore) : Prop where
  written : ∀ x ∈ xs, ∃ r, t.clients.get? x.email = some r ∧
    r.Alike (writtenRow (s.clients.get? x.email) x)
  others : ∀ e, e ∉ xs.map BatchItem.email → t.clients.get? e = s.clients.get? e

/-- Where a write has left the row of another client alone, the other edit is still valid. -/
theorem managed_of_eq {t : ClientStore} {x : BatchItem} (h : x.Managed s)
    (hids : t.inboundIds = s.inboundIds)
    (hrow : t.clients.get? x.email = s.clients.get? x.email) : x.Managed t where
  toChecked := hids.symm ▸ h.toChecked
  named := by simpa only [hrow] using h.named
  plain := by simpa only [hrow] using h.plain
  sameSubId := by simpa only [hrow] using h.sameSubId
  storedKnown := by simpa only [hrow, hids] using h.storedKnown

theorem applyAll_cons (records : Table String ClientRow) (x : BatchItem) (xs : List BatchItem) :
    applyAll records (x :: xs) =
      (do applyUpsert (records.get? x.email) x; applyAll records xs : EngineCall Unit) :=
  rfl

/-- One by one, every edit is carried out. -/
theorem applyAll_leaves {records : Table String ClientRow} (hwrites : s.writesEnabled = true)
    (hmanaged : ∀ x ∈ xs, x.Managed s) (hdistinct : (xs.map BatchItem.email).Nodup)
    (hrecords : ∀ x ∈ xs, records.get? x.email = s.clients.get? x.email) :
    ∃ t, applyAll records xs s = (.ok (), t) ∧ Leaves xs s t := by
  induction xs generalizing s with
  | nil => exact ⟨s, rfl, by simp, fun _ _ => rfl⟩
  | cons x xs ih =>
      rw [List.map_cons, List.nodup_cons] at hdistinct
      obtain ⟨u, row, hu, hdoes, halike⟩ := applyUpsert_ok hwrites (hmanaged x (by simp))
      have hother : ∀ y ∈ xs, u.clients.get? y.email = s.clients.get? y.email := by
        intro y hy
        have hne : y.email ≠ x.email := fun hsame =>
          hdistinct.1 (hsame ▸ List.mem_map_of_mem hy)
        rw [hdoes.clients, if_neg hne]
      obtain ⟨t, ht, hleaves⟩ := ih (hdoes.writesEnabled.trans hwrites)
        (fun y hy => managed_of_eq (hmanaged y (by simp [hy])) hdoes.inboundIds (hother y hy))
        hdistinct.2
        (fun y hy => (hrecords y (by simp [hy])).trans (hother y hy).symm)
      refine ⟨t, ?_, ?_, ?_⟩
      · rw [applyAll_cons, Tx.bind_ok_iff, hrecords x (by simp)]
        exact ⟨(), u, hu, ht⟩
      · intro y hy
        rcases List.mem_cons.mp hy with rfl | hy
        · refine ⟨row, ?_, halike⟩
          rw [hleaves.others _ hdistinct.1, hdoes.self]
        · obtain ⟨r, hr, hlike⟩ := hleaves.written y hy
          rw [hother y hy] at hlike
          exact ⟨r, hr, hlike⟩
      · intro e he
        rw [List.map_cons, List.mem_cons, not_or] at he
        rw [hleaves.others e he.2, hdoes.clients, if_neg he.1]

/-- The row that a prepared item leaves. -/
def Prepared.row (p : Prepared) (old : Option ClientRow) : ClientRow where
  body := p.body
  inbounds := p.inbounds
  up := old.elim 0 ClientRow.up
  down := old.elim 0 ClientRow.down

theorem get?_writePrepared (t : Table String ClientRow) (p : Prepared) (e : String) :
    (writePrepared t p).get? e = if e = p.email then some (p.row (t.get? p.email)) else t.get? e := by
  rw [writePrepared, Table.get?_upsert]
  cases t.get? p.email <;> rfl

/-- The batch carries out every edit as well. -/
theorem foldl_leaves (hdistinct : (xs.map BatchItem.email).Nodup) :
    Leaves xs s { s with
      clients := (xs.map (BatchItem.prepared s.clients)).foldl writePrepared s.clients } := by
  have hfold : (xs.map (BatchItem.prepared s.clients)).foldl writePrepared s.clients =
      (xs.map fun x => (x.email, x.prepared s.clients)).foldl
        (fun t y => writePrepared t { y.2 with email := y.1 }) s.clients := by
    rw [List.foldl_map, List.foldl_map]
    rfl
  have hkeys : (xs.map fun x => (x.email, x.prepared s.clients)).map Prod.fst =
      xs.map BatchItem.email := by
    rw [List.map_map]
    rfl
  have hother : ∀ (t : Table String ClientRow) (y : String × Prepared) (k : String), k ≠ y.1 →
      (writePrepared t { y.2 with email := y.1 }).get? k = t.get? k := by
    intro t y k hne
    rw [get?_writePrepared, if_neg hne]
  have hself : ∀ (t : Table String ClientRow) (y : String × Prepared),
      (writePrepared t { y.2 with email := y.1 }).get? y.1 = some (y.2.row (t.get? y.1)) := by
    intro t y
    rw [get?_writePrepared, if_pos rfl]
    rfl
  rw [← hkeys] at hdistinct
  rw [hfold]
  constructor
  · intro x hx
    refine ⟨writtenRow (s.clients.get? x.email) x, ?_, rfl, fun _ => Iff.rfl, rfl, rfl⟩
    exact Table.get?_foldl_of_mem (f := fun _ p old => some (p.row old)) hother hself hdistinct
      (List.mem_map.mpr ⟨x, hx, rfl⟩) s.clients
  · intro e he
    exact Table.get?_foldl_of_not_mem hother (hkeys ▸ he) s.clients

/-- An item of the batch is invalid, two of them share an identity, or their number is. -/
def Unacceptable (s : ClientStore) (items : List Doc) : Prop :=
  items = [] ∨ 500 < items.length ∨
    ¬ ∃ xs, List.Forall₂ BatchItem.Reads items xs ∧ (∀ x ∈ xs, x.Checked s.inboundIds) ∧
      (xs.map BatchItem.email).Nodup

/-- A batch with an invalid item raises and writes nothing. -/
theorem upsertMany_refuses (h : Unacceptable s items) :
    ∃ e, upsertMany items s = (.error e, s) := by
  rcases hrun : upsertMany items s with ⟨e | n, t⟩
  · exact ⟨e, by rw [upsertMany_error hrun]⟩
  · obtain ⟨-, hlength, ps, hps, -⟩ := upsertMany_ok_iff.mp hrun
    obtain ⟨xs, hreads, hchecked, hdistinct, -⟩ := prepare_ok_iff.mp hps
    rcases h with hnil | hlong | hnone
    · exact absurd hnil hlength.1
    · exact absurd hlength.2 (by omega)
    · exact absurd ⟨xs, hreads, hchecked, hdistinct⟩ hnone

/-- A batch of valid edits writes all of them. -/
theorem upsertMany_ok (hwrites : s.writesEnabled = true) (hne : items ≠ [])
    (hlength : items.length ≤ 500) (hreads : List.Forall₂ BatchItem.Reads items xs)
    (hchecked : ∀ x ∈ xs, x.Checked s.inboundIds)
    (hdistinct : (xs.map BatchItem.email).Nodup) :
    ∃ t, upsertMany items s = (.ok items.length, t) ∧ Leaves xs s t := by
  refine ⟨_, upsertMany_ok_iff.mpr ⟨hwrites, ⟨hne, hlength⟩, _, ?_, ?_, rfl⟩,
    foldl_leaves hdistinct⟩
  · exact prepare_ok_iff.mpr ⟨xs, hreads, hchecked, hdistinct, by simp, rfl⟩
  · rw [List.length_map, hreads.length_eq]

/-- Where the configuration forbids writes, neither way changes anything. -/
theorem unchanged_of_disabled (h : s.writesEnabled = false) (items : List Doc)
    (xs : List BatchItem) :
    (upsertMany items s).2 = s ∧ (applyAll s.clients xs s).2 = s := by
  have hengine : engineWrite s = (.error (.coreError "Local writes disabled" 409), s) := by
    simp [engineWrite, Tx.require, h, Tx.raise]
  constructor
  · rw [upsertMany, Tx.bind_apply, hengine]
  · cases xs with
    | nil => rfl
    | cons x xs =>
        have hraise : ∃ e, applyUpsert (s.clients.get? x.email) x s = (.error e, s) := by
          cases s.clients.get? x.email with
          | none =>
              refine ⟨.coreError "Local writes disabled" 409, ?_⟩
              rw [applyUpsert, create, Tx.bind_apply, hengine]
          | some record =>
              simp only [applyUpsert]
              by_cases hsame : sameSubId record.body x.client = true
              · refine ⟨.coreError "Local writes disabled" 409, ?_⟩
                rw [Tx.require, if_pos hsame, Tx.bind_apply, Tx.pure_apply]
                dsimp only
                rw [Tx.bind_apply, update, Tx.bind_apply, hengine]
              · exact ⟨_, by rw [Tx.require, if_neg hsame]; rfl⟩
        obtain ⟨e, he⟩ := hraise
        rw [applyAll_cons, Tx.bind_apply, he]

/-- The batch refines the calls one by one: for up to 500 edits as the manager makes them, both
ways carry all edits out, with the same bodies, sets of inbounds and counters, and change no
other row; a batch that is not acceptable raises and changes no row. -/
theorem upsertMany_refines (s : ClientStore) (items : List Doc) :
    (∀ xs, items ≠ [] → items.length ≤ 500 → List.Forall₂ BatchItem.Reads items xs →
      (∀ x ∈ xs, x.Managed s) → (xs.map BatchItem.email).Nodup →
      if s.writesEnabled then
        ∃ t u, upsertMany items s = (.ok items.length, t) ∧
          applyAll s.clients xs s = (.ok (), u) ∧ Leaves xs s t ∧ Leaves xs s u
      else (upsertMany items s).2 = s ∧ (applyAll s.clients xs s).2 = s) ∧
    (Unacceptable s items → ∃ e, upsertMany items s = (.error e, s)) := by
  refine ⟨?_, upsertMany_refuses⟩
  intro xs hne hlength hreads hmanaged hdistinct
  split <;> rename_i hwrites
  · obtain ⟨t, ht, hfast⟩ := upsertMany_ok hwrites hne hlength hreads
      (fun x hx => (hmanaged x hx).toChecked) hdistinct
    obtain ⟨u, hu, hslow⟩ := applyAll_leaves hwrites hmanaged hdistinct fun _ _ => rfl
    exact ⟨t, u, ht, hu, hfast, hslow⟩
  · exact unchanged_of_disabled (Bool.eq_false_iff.mpr hwrites) items xs

/-! ## Edits that the two ways treat differently -/

/-- An item as a document. -/
def BatchItem.doc (x : BatchItem) : Doc :=
  .dict [("email", .str x.email), ("client", x.client.doc),
    ("inbounds", .list (x.inbounds.map Doc.int))]

/-- A record with these fields. -/
def recordOf (fields : List (String × Doc)) : Record where
  doc := .dict fields
  isDict := rfl

/-- A client in these inbounds. -/
def editIn (inbounds : List ℤ) (fields : List (String × Doc)) : BatchItem where
  email := "alice"
  client := recordOf fields
  inbounds := inbounds

/-- A client in one inbound. -/
def editOf (fields : List (String × Doc)) : BatchItem :=
  editIn [1] fields

/-- An engine with the inbounds 1 and 2 and these clients. -/
def engineOf (clients : Table String ClientRow) : ClientStore where
  writesEnabled := true
  inboundIds := [1, 2]
  clients := clients

/-- A stored client. -/
def storedClient (inbounds : List ℤ) : ClientRow where
  body := recordOf [("email", .str "alice"), ("subId", .str "s1")]
  inbounds := inbounds
  up := 10
  down := 20

/-- A new client, and one that moves to another inbound and names neither its e-mail nor an owner
that the engine would keep. -/
def twoEdits : List BatchItem :=
  [⟨"bob", recordOf [("email", .str "bob"), ("subId", .str "s2")], [2, 1]⟩,
    editIn [2] [("subId", .str "s1"), ("owner", .str "mika")]]

/-- The engine before these edits. -/
def twoStart : ClientStore :=
  engineOf (Table.empty.insert "alice" (storedClient [1]))

theorem upsertMany_refines_two :
    ∃ t u, upsertMany (twoEdits.map BatchItem.doc) twoStart = (.ok 2, t) ∧
      applyAll twoStart.clients twoEdits twoStart = (.ok (), u) ∧
      Leaves twoEdits twoStart t ∧ Leaves twoEdits twoStart u := by
  have hbob : BatchItem.Managed twoStart
      ⟨"bob", recordOf [("email", .str "bob"), ("subId", .str "s2")], [2, 1]⟩ := by
    refine ⟨⟨by decide +kernel, by decide +kernel, by decide +kernel, by decide +kernel,
      by decide +kernel, by decide +kernel⟩, fun _ => rfl, ?_, ?_, ?_⟩
    · have hall : ∀ key ∈ derivedKeys,
          ((recordOf [("email", .str "bob"), ("subId", .str "s2")]).doc.get? key).isNone =
            true := by decide +kernel
      exact fun _ key hkey => Option.isNone_iff_eq_none.mp (hall key hkey)
    · exact fun r hr => by cases hr
    · exact fun r hr => by cases hr
  have hstored : ∀ r, twoStart.clients.get? "alice" = some r → r = storedClient [1] :=
    fun r hr => (Option.some.inj hr).symm
  have halice : BatchItem.Managed twoStart
      (editIn [2] [("subId", .str "s1"), ("owner", .str "mika")]) := by
    refine ⟨⟨by decide +kernel, by decide +kernel, by decide +kernel, by decide +kernel,
      by decide +kernel, by decide +kernel⟩, ?_, ?_, ?_, ?_⟩
    · exact fun hnew => by cases hnew
    · exact fun hnew => by cases hnew
    · intro r hr
      rw [hstored r hr]
      decide +kernel
    · intro r hr
      rw [hstored r hr]
      decide +kernel
  have hmanaged : ∀ x ∈ twoEdits, x.Managed twoStart := by
    intro x hx
    rcases List.mem_cons.mp hx with rfl | hx
    · exact hbob
    · rw [List.mem_singleton.mp hx]
      exact halice
  exact (upsertMany_refines twoStart (twoEdits.map BatchItem.doc)).1 twoEdits (by decide)
    (by decide) (.cons ⟨rfl, rfl, rfl⟩ (.cons ⟨rfl, rfl, rfl⟩ .nil)) hmanaged (by decide)

/-- The name of a client with a number below 676. -/
def clientName (i : ℕ) : String :=
  String.ofList [Char.ofNat (97 + i / 26), Char.ofNat (97 + i % 26)]

/-- New clients, as many as asked for. -/
def newClients (n : ℕ) : List BatchItem :=
  (List.range n).map fun i => ⟨clientName i, recordOf [("email", .str (clientName i))], [1]⟩

/-- Their names are valid and can be told apart. -/
theorem clientName_valid : ∀ i < 501, emailRe (clientName i) = true ∧
    (clientName i).toList.foldl (fun n c => 26 * n + (c.toNat - 97)) 0 = i := by
  decide +kernel

/-- One client more than a batch takes. -/
theorem manyClients_diverge :
    (∃ e, upsertMany ((newClients 501).map BatchItem.doc) (engineOf .empty) =
      (.error e, engineOf .empty)) ∧
    ∃ u, applyAll .empty (newClients 501) (engineOf .empty) = (.ok (), u) := by
  constructor
  · apply upsertMany_refuses
    exact Or.inr (Or.inl (by simp [newClients]))
  · have hmanaged : ∀ x ∈ newClients 501, x.Managed (engineOf .empty) := by
      intro x hx
      obtain ⟨i, hi, rfl⟩ := List.mem_map.mp hx
      obtain ⟨hemail, -⟩ := clientName_valid i (List.mem_range.mp hi)
      refine ⟨⟨hemail, by simp, by simp, by simp, by simp [engineOf], ?_⟩, fun _ => rfl, ?_, ?_, ?_⟩
      · simp [keepsIdentity, recordOf, Doc.get?, Doc.field?, Doc.str?, Doc.str]
      · intro _ key hkey
        have hne : key ≠ "email" := by
          rintro rfl
          exact absurd hkey (by decide)
        simp [recordOf, Doc.get?, Doc.field?, hne.symm]
      · exact fun r hr => by cases hr
      · exact fun r hr => by cases hr
    have hdistinct : ((newClients 501).map BatchItem.email).Nodup := by
      rw [newClients, List.map_map]
      apply List.Nodup.map_on _ List.nodup_range
      intro i hi j hj hsame
      have hnumber := congrArg
        (fun name => name.toList.foldl (fun n c => 26 * n + (c.toNat - 97)) 0) hsame
      dsimp only [Function.comp_apply] at hnumber
      rwa [(clientName_valid i (List.mem_range.mp hi)).2,
        (clientName_valid j (List.mem_range.mp hj)).2] at hnumber
    obtain ⟨u, hu, -⟩ := applyAll_leaves rfl hmanaged hdistinct fun _ _ => rfl
    exact ⟨u, hu⟩

/-- Edits that only one of the two ways accepts, or that they store differently: a new record
with a derived key, one without its identity, a client that is attached while it is stored in an
inbound that no longer exists, one with another {lit}`subId`, one without inbounds, one with an
inbound twice, an empty batch, and too long a one. -/
theorem upsertMany_diverges :
    (((upsertMany [(editOf [("email", .str "alice"), ("owner", .str "bob")]).doc]
        (engineOf Table.empty)).2.clients.get? "alice").map
          (fun r => (r.body.doc.get? "owner").isSome) = some false ∧
      ((applyAll Table.empty [editOf [("email", .str "alice"), ("owner", .str "bob")]]
        (engineOf Table.empty)).2.clients.get? "alice").map
          (fun r => (r.body.doc.get? "owner").isSome) = some true) ∧
    ((upsertMany [(editOf []).doc] (engineOf Table.empty)).1.isOk = true ∧
      (applyAll Table.empty [editOf []] (engineOf Table.empty)).1.isOk = false) ∧
    ((upsertMany [(editOf [("email", .str "alice"), ("subId", .str "s1")]).doc]
        (engineOf (Table.empty.insert "alice" (storedClient [9])))).1.isOk = true ∧
      (applyAll (Table.empty.insert "alice" (storedClient [9]))
        [editOf [("email", .str "alice"), ("subId", .str "s1")]]
        (engineOf (Table.empty.insert "alice" (storedClient [9])))).1.isOk = false) ∧
    ((upsertMany [(editOf [("email", .str "alice"), ("subId", .str "s2")]).doc]
        (engineOf (Table.empty.insert "alice" (storedClient [1])))).1.isOk = true ∧
      (applyAll (Table.empty.insert "alice" (storedClient [1]))
        [editOf [("email", .str "alice"), ("subId", .str "s2")]]
        (engineOf (Table.empty.insert "alice" (storedClient [1])))).1.isOk = false) ∧
    ((upsertMany [(editIn [] [("email", .str "alice")]).doc] (engineOf Table.empty)).1.isOk =
        false ∧
      (applyAll Table.empty [editIn [] [("email", .str "alice")]]
        (engineOf Table.empty)).1.isOk = true) ∧
    ((upsertMany [(editIn [1, 1] [("email", .str "alice")]).doc] (engineOf Table.empty)).1.isOk =
        false ∧
      (applyAll Table.empty [editIn [1, 1] [("email", .str "alice")]]
        (engineOf Table.empty)).1.isOk = true) ∧
    ((upsertMany [] (engineOf Table.empty)).1.isOk = false ∧
      (applyAll Table.empty [] (engineOf Table.empty)).1.isOk = true) ∧
    (upsertMany ((newClients 501).map BatchItem.doc) (engineOf .empty)).1.isOk = false ∧
      (applyAll .empty (newClients 501) (engineOf .empty)).1.isOk = true := by
  obtain ⟨⟨e, hfast⟩, u, hslow⟩ := manyClients_diverge
  refine ⟨?_, ?_, ?_, ?_, ?_, ?_, ?_, by rw [hfast]; rfl, by rw [hslow]; rfl⟩
  all_goals decide +kernel

end Refinement

end Core
end DarkXray
