import DarkXray.Credit.Change

/-!
# Operations on owners and clients

The operations of the policy store that register and edit owners and clients and
adjust the resource credit of representatives.  Each of them runs in a transaction;
a bulk edit gives every row a savepoint of its own.

Main results:

- Theorem {lit}`Call.atomic`: a call that raises leaves the store as it was.
- Theorem {lit}`bulkItem_failed`: neither does a failed row of a bulk edit.
-/

namespace DarkXray
namespace Policy

open Library Credit

/-! ## Arguments -/

/-- Equality of a dynamically typed argument with an integer, as the language
compares them. -/
def Value.eqInt : Value → ℤ → Bool
  | .int m, n => m = n
  | .bool b, n => b.toInt = n
  | _, _ => false

/-- An argument that may be omitted, otherwise a validated integer. -/
def optionalInteger (value : Value) (minimum : ℤ := 0) (maximum : ℤ := maxInt) :
    Except Failure (Option ℤ) :=
  if value = .none then .ok none
  else some <$> integer value minimum maximum

/-- An argument that may be omitted, otherwise a boolean. -/
def optionalBool : Value → Except Failure (Option Bool)
  | .none => .ok none
  | .bool b => .ok (some b)
  | _ => .error (.policyError "manual must be boolean")

/-- {lit}`quota_bytes` as an alias of {lit}`volume_credit_bytes` for older callers. -/
def volumeAlias (volumeCreditBytes quotaBytes : Value) : Except Failure Value :=
  if quotaBytes = .none then .ok volumeCreditBytes
  else do
    let quota ← integer quotaBytes
    if volumeCreditBytes = .none then return .int quota
    else do
      ensure (volumeCreditBytes.eqInt quota = true)
        (.policyError "Use volume_credit_bytes instead of legacy quota_bytes")
      return volumeCreditBytes

/-- An omitted credit keeps the stored one, or is zero for a new owner. -/
def creditArgument (previous : Option ℤ) (value : Value) (maximum : ℤ) : Except Failure ℤ :=
  match previous, value with
  | some n, .none => .ok n
  | none, .none => integer (.int 0) 0 maximum
  | _, value => integer value 0 maximum

/-! ## Owners -/

/-- {lit}`INSERT INTO owners … ON CONFLICT DO UPDATE`. -/
def storeOwner (owner : String) (volume unlimited maxClients : ℤ) (manual : Bool) :
    Tx Store Failure Unit :=
  Tx.write fun s => { s with
    owners := s.owners.upsert owner ⟨volume, unlimited, 0, maxClients, manual, false⟩ fun r =>
      { r with
        volumeCreditBytes := volume, unlimitedCredit := unlimited
        maxClients := maxClients, manual := manual } }

/-- {lit}`Store.register_owner`; {lit}`uuid` is the random part of the event id. -/
def registerOwner (actor : Actor) (owner : String)
    (volumeCreditBytes unlimitedCredit maxClients manual quotaBytes : Value) (uuid : String) :
    Tx Store Failure Unit := do
  actor.require "owners" "edit" owner
  demandPolicy (nameRe owner = true) "Invalid owner name"
  let volumeCreditBytes ← Tx.ofExcept (volumeAlias volumeCreditBytes quotaBytes)
  let maxClients ← Tx.ofExcept (integer maxClients 0 1000000)
  let manual ← Tx.ofExcept (optionalBool manual)
  Tx.transaction do
    let previous ← Tx.read fun s => s.owners.get? owner
    let volume ← Tx.ofExcept
      (creditArgument (previous.map Owner.volumeCreditBytes) volumeCreditBytes maxInt)
    let unlimited ← Tx.ofExcept
      (creditArgument (previous.map Owner.unlimitedCredit) unlimitedCredit 1000000)
    let allocation ← Tx.read fun s => s.allocation owner fun _ => true
    let allocated ← Tx.ofExcept allocation
    let enforced ← Tx.read fun s => s.resourceCreditEnforced owner (some actor)
    demandPolicy (¬(enforced = true ∧ volume < allocated))
      "Volume credit cannot be lower than currently allocated client volume"
    demandPolicy (¬(enforced = true ∧ unlimited < previous.elim 0 Owner.unlimitedSpent))
      "Unlimited credit cannot be lower than already spent user-month units"
    let count ← Tx.read fun s => s.clientCount owner
    demandPolicy (¬(maxClients ≠ 0 ∧ maxClients < count))
      "The requested client quota is below the current number of records"
    storeOwner owner volume unlimited maxClients
      (manual.getD (previous.elim false Owner.manual))
    let delta := unlimited - previous.elim 0 Owner.unlimitedCredit
    Tx.when (delta ≠ 0) (Store.insertCredit ("unlimited-grant:" ++ uuid)
      { owner := owner, volumeBytes := 0, unlimitedUnits := delta
        kind := "unlimited_grant_set", reference := actor.id })

/-- An event id is a string of 16 to 256 characters. -/
def eventIdOf : Value → Except Failure String
  | .str id =>
      if 16 ≤ id.length ∧ id.length ≤ 256 then .ok id
      else .error (.policyError "Unique event ID required")
  | _ => .error (.policyError "Unique event ID required")

/-- The part of {lit}`adjust_resource_credit` for an event id that is new. -/
def adjustNew (owner : String) (volumeBytes unlimitedUnits : ℤ) (eventId : String) :
    Tx Store Failure Unit := do
  let r ← Tx.read fun s => s.owners.get? owner
  let r ← Tx.demand r (.policyError "Owner does not exist")
  let role ← Tx.read fun s => s.admins owner
  demandPolicy (role = some .reseller) "Resource credit applies only to representatives"
  let newVolume := r.volumeCreditBytes + volumeBytes
  let newUnlimited := r.unlimitedCredit + unlimitedUnits
  demandPolicy (¬(newVolume < 0 ∨ maxInt < newVolume)) "Volume credit adjustment is out of range"
  demandPolicy (¬(newUnlimited < 0 ∨ 1000000 < newUnlimited))
    "Unlimited credit adjustment is out of range"
  let allocation ← Tx.read fun s => s.allocation owner fun _ => true
  let allocated ← Tx.ofExcept allocation
  demandPolicy (¬newVolume < allocated)
    "Volume credit cannot fall below allocated client volume"
  demandPolicy (¬newUnlimited < r.unlimitedSpent)
    "Unlimited credit cannot fall below spent user-month units"
  Store.insertCredit eventId
    { owner := owner, volumeBytes := volumeBytes, unlimitedUnits := unlimitedUnits
      kind := "adjust", reference := "" }
  Tx.write fun s => { s with
    owners := s.owners.update owner fun r =>
      { r with volumeCreditBytes := newVolume, unlimitedCredit := newUnlimited } }

/-- {lit}`Store.adjust_resource_credit`; the result tells a repeated event apart. -/
def adjustResourceCredit (actor : Actor) (owner : String)
    (volumeBytes unlimitedUnits eventId : Value) : Tx Store Failure Bool := do
  actor.require "owners" "edit" owner
  let volumeBytes ← Tx.ofExcept (integer volumeBytes (-maxInt) maxInt)
  let unlimitedUnits ← Tx.ofExcept (integer unlimitedUnits (-1000000) 1000000)
  demandPolicy (¬(volumeBytes = 0 ∧ unlimitedUnits = 0))
    "At least one resource credit delta is required"
  let eventId ← Tx.ofExcept (eventIdOf eventId)
  Tx.transaction do
    let old ← Tx.read fun s => s.resourceCreditLedger.get? eventId
    if old ≠ none then do
      demandPolicy (∀ r, old = some r →
          r.owner = owner ∧ r.volumeBytes = volumeBytes ∧ r.unlimitedUnits = unlimitedUnits)
        "Idempotency collision"
      return false
    else do
      adjustNew owner volumeBytes unlimitedUnits eventId
      return true

/-! ## Clients -/

/-- {lit}`Store.register_client`; {lit}`now` is the clock that {lit}`change` reads. -/
def registerClient (actor : Actor) (clientId owner : String)
    (limitIp quotaBytes price orderId expiresAt durationDays : Value) (now : ℤ) :
    Tx Store Failure Bool := do
  actor.require "clients" "create" owner
  demandPolicy (nameRe clientId = true) "Invalid client ID"
  let limitIp ← Tx.ofExcept (integer limitIp 0 1000)
  let quotaBytes ← Tx.ofExcept (integer quotaBytes)
  let price ← Tx.ofExcept (integer price)
  let expiresAt ← Tx.ofExcept (integer expiresAt)
  demandPolicy (price = 0 ∧ orderId = .none)
    "Monetary reseller credit is retired; use volume/unlimited resource credits"
  Tx.transaction do
    let r ← Tx.read fun s => s.owners.get? owner
    let r ← Tx.demand r (.policyError "Owner is not registered")
    demandPolicy (¬(r.manual = true ∨ r.accountDisabled = true)) "Owner account is disabled"
    let count ← Tx.read fun s => s.clientCount owner
    demandPolicy (¬(r.maxClients ≠ 0 ∧ r.maxClients ≤ count)) "Owner client quota is full"
    let enforced ← Tx.read fun s => s.resourceCreditEnforced owner (some actor)
    let allocation ← Tx.read fun s => s.allocation owner fun _ => true
    let allocated ← Tx.ofExcept (if enforced = true then allocation else .ok 0)
    demandPolicy (¬(enforced = true ∧ 0 < quotaBytes ∧ r.volumeCreditBytes < allocated + quotaBytes))
      "Insufficient representative volume credit"
    let _ ← change clientId owner ⟨quotaBytes, limitIp, expiresAt, now, durationDays, true⟩ false
    let old ← Tx.read fun s => s.clients.get? clientId
    Tx.require (old = none) .integrityError
    Tx.write fun s => { s with
      clients := s.clients.insert clientId ⟨owner, limitIp, quotaBytes, expiresAt, false⟩ }
    return true

/-- Fields of a client that an edit may change. -/
structure ClientEdit where
  limitIp : Value
  quotaBytes : Value
  manual : Value
  expiresAt : Value
deriving DecidableEq, Repr

/-- The client row after an edit. -/
def editedClient (u : Client) (limitIp quotaBytes expiresAt : Option ℤ) (manual : Option Bool) :
    Client :=
  { u with
    limitIp := limitIp.getD u.limitIp
    quotaBytes := quotaBytes.getD u.quotaBytes
    expiresAt := expiresAt.getD u.expiresAt
    manual := manual.getD u.manual }

/-- The volume check of {lit}`edit_client`: it is made when a quota is given. -/
def checkVolume (actor : Actor) (clientId owner : String) (newQuota : ℤ) :
    Tx Store Failure Unit := do
  let enforced ← Tx.read fun s => s.resourceCreditEnforced owner (some actor)
  if enforced = true then do
    let r ← Tx.read fun s => s.owners.get? owner
    let r ← Tx.demand r (.policyError "Owner is not registered")
    let allocation ← Tx.read fun s => s.allocation owner fun id => id ≠ clientId
    let allocated ← Tx.ofExcept allocation
    demandPolicy (¬(0 < newQuota ∧ r.volumeCreditBytes < allocated + newQuota))
      "Insufficient representative volume credit"
  else pure ()

/-- {lit}`Store.edit_client`. -/
def editClient (actor : Actor) (clientId : String) (edit : ClientEdit) (now : ℤ) :
    Tx Store Failure Unit :=
  Tx.transaction do
    let u ← Tx.read fun s => s.clients.get? clientId
    let u ← Tx.demand u (.policyError "Client does not exist")
    actor.require "clients" "edit" u.owner
    let limitIp ← Tx.ofExcept (optionalInteger edit.limitIp 0 1000)
    let quotaBytes ← Tx.ofExcept (optionalInteger edit.quotaBytes)
    Tx.when (quotaBytes ≠ none) (checkVolume actor clientId u.owner (quotaBytes.getD 0))
    let expiresAt ← Tx.ofExcept (optionalInteger edit.expiresAt)
    let manual ← Tx.ofExcept (optionalBool edit.manual)
    let new := editedClient u limitIp quotaBytes expiresAt manual
    Tx.when (¬(new.limitIp = u.limitIp ∧ new.quotaBytes = u.quotaBytes ∧
        new.expiresAt = u.expiresAt)) do
      let _ ← change clientId u.owner
        ⟨new.quotaBytes, new.limitIp, new.expiresAt, now, .none, false⟩ false
    Tx.write fun s => { s with clients := s.clients.update clientId fun _ => new }

/-- {lit}`Store.delete_client`: the ledgers stay attached to the original owner. -/
def deleteClient (actor : Actor) (clientId : String) : Tx Store Failure Unit :=
  Tx.transaction do
    let u ← Tx.read fun s => s.clients.get? clientId
    let u ← Tx.demand u (.policyError "Client does not exist")
    actor.require "clients" "delete" u.owner
    Tx.write fun s => { s with clients := s.clients.erase clientId }

/-! ## Bulk edits -/

/-- One row of a bulk edit: the requested fields, or {lit}`none` where the request
is not a dictionary. -/
structure BulkEdit where
  clientId : Value
  requested : Option (List (String × Value))
  now : ℤ
deriving DecidableEq, Repr

/-- The value of a requested field. -/
def requestedField (requested : List (String × Value)) (field : String) : Value :=
  (requested.lookup field).getD .none

/-- The checked body of the loop over the rows: edit one client. -/
def bulkRow (actor : Actor) (seen : List String) (item : BulkEdit) : Tx Store Failure Unit :=
  match item.clientId, item.requested with
  | .str clientId, some requested => do
      demandPolicy (clientId ∉ seen) "Invalid or duplicate bulk client edit"
      demandPolicy
        (∀ f ∈ requested, f.1 ∈ ["limit_ip", "quota_bytes", "manual", "expires_at"])
        "Unknown client policy field"
      editClient actor clientId
        { limitIp := requestedField requested "limit_ip"
          quotaBytes := requestedField requested "quota_bytes"
          manual := requestedField requested "manual"
          expiresAt := requestedField requested "expires_at" } item.now
  | _, _ => Tx.raise (.policyError "Invalid or duplicate bulk client edit")

/-- One round of the loop: the failure of a row is caught if it is a
{lit}`PolicyError`. -/
def bulkItem (actor : Actor) (seen : List String) (item : BulkEdit) :
    Tx Store Failure (Option Failure) :=
  Tx.handle (do bulkRow actor seen item; return none) fun e =>
    if e.isPolicyError then some (pure (some e)) else none

/-- Client ids that later rows may not use again. -/
def bulkSeen (seen : List String) (item : BulkEdit) : List String :=
  match item.clientId, item.requested with
  | .str clientId, some _ => clientId :: seen
  | _, _ => seen

/-- {lit}`errors[client_id] = str(ex)[:300]`. -/
def recordError (errors : Table Value String) (clientId : Value) : Option Failure →
    Table Value String
  | none => errors
  | some e =>
      let text := (e.message.take 300).toString
      errors.upsert clientId text fun _ => text

/-- The loop over the rows, collecting the failures. -/
def bulkLoop (actor : Actor) :
    List BulkEdit → List String → Table Value String → Tx Store Failure (Table Value String)
  | [], _, errors => pure errors
  | item :: rest, seen, errors => do
      let failed ← bulkItem actor seen item
      bulkLoop actor rest (bulkSeen seen item) (recordError errors item.clientId failed)

/-- {lit}`Store.edit_clients_many`. -/
def editClientsMany (actor : Actor) (edits : List BulkEdit) :
    Tx Store Failure (Table Value String) := do
  demandPolicy (edits.length ≤ 500) "Bulk client edit requires at most 500 clients"
  Tx.transaction (bulkLoop actor edits [] .empty)

/-! ## Calls -/

/-- The calls that register and edit owners and clients and adjust credit. -/
inductive Call where
  | registerOwner (actor : Actor) (owner : String)
      (volumeCreditBytes unlimitedCredit maxClients manual quotaBytes : Value) (uuid : String)
  | adjustResourceCredit (actor : Actor) (owner : String)
      (volumeBytes unlimitedUnits eventId : Value)
  | registerClient (actor : Actor) (clientId owner : String)
      (limitIp quotaBytes price orderId expiresAt durationDays : Value) (now : ℤ)
  | editClient (actor : Actor) (clientId : String) (edit : ClientEdit) (now : ℤ)
  | editClientsMany (actor : Actor) (edits : List BulkEdit)
  | deleteClient (actor : Actor) (clientId : String)

/-- Run a call; its result does not matter here. -/
def Call.run : Call → Tx Store Failure Unit
  | .registerOwner actor owner volume unlimited maxClients manual quota uuid =>
      Policy.registerOwner actor owner volume unlimited maxClients manual quota uuid
  | .adjustResourceCredit actor owner volume units eventId => do
      let _ ← Policy.adjustResourceCredit actor owner volume units eventId
      return ()
  | .registerClient actor clientId owner limitIp quota price orderId expiresAt days now => do
      let _ ← Policy.registerClient actor clientId owner limitIp quota price orderId expiresAt
        days now
      return ()
  | .editClient actor clientId edit now => Policy.editClient actor clientId edit now
  | .editClientsMany actor edits => do
      let _ ← Policy.editClientsMany actor edits
      return ()
  | .deleteClient actor clientId => Policy.deleteClient actor clientId

/-! ## Failed calls change nothing -/

/-- Registering an owner is all or nothing. -/
theorem registerOwner_atomic (actor : Actor) (owner : String)
    (volume unlimited maxClients manual quota : Value) (uuid : String) :
    Tx.Atomic (registerOwner actor owner volume unlimited maxClients manual quota uuid) := by
  refine Tx.Atomic.bind (actor.readOnly_require _ _ _) fun _ => ?_
  refine Tx.Atomic.bind (readOnly_demandPolicy _ _) fun _ => ?_
  refine Tx.Atomic.bind (Tx.ReadOnly.ofExcept _) fun _ => ?_
  refine Tx.Atomic.bind (Tx.ReadOnly.ofExcept _) fun _ => ?_
  refine Tx.Atomic.bind (Tx.ReadOnly.ofExcept _) fun _ => ?_
  exact Tx.Atomic.transaction _

/-- Adjusting credit is all or nothing. -/
theorem adjustResourceCredit_atomic (actor : Actor) (owner : String)
    (volumeBytes unlimitedUnits eventId : Value) :
    Tx.Atomic (adjustResourceCredit actor owner volumeBytes unlimitedUnits eventId) := by
  refine Tx.Atomic.bind (actor.readOnly_require _ _ _) fun _ => ?_
  refine Tx.Atomic.bind (Tx.ReadOnly.ofExcept _) fun _ => ?_
  refine Tx.Atomic.bind (Tx.ReadOnly.ofExcept _) fun _ => ?_
  refine Tx.Atomic.bind (readOnly_demandPolicy _ _) fun _ => ?_
  refine Tx.Atomic.bind (Tx.ReadOnly.ofExcept _) fun _ => ?_
  exact Tx.Atomic.transaction _

/-- Registering a client is all or nothing. -/
theorem registerClient_atomic (actor : Actor) (clientId owner : String)
    (limitIp quota price orderId expiresAt days : Value) (now : ℤ) :
    Tx.Atomic
      (registerClient actor clientId owner limitIp quota price orderId expiresAt days now) := by
  refine Tx.Atomic.bind (actor.readOnly_require _ _ _) fun _ => ?_
  refine Tx.Atomic.bind (readOnly_demandPolicy _ _) fun _ => ?_
  refine Tx.Atomic.bind (Tx.ReadOnly.ofExcept _) fun _ => ?_
  refine Tx.Atomic.bind (Tx.ReadOnly.ofExcept _) fun _ => ?_
  refine Tx.Atomic.bind (Tx.ReadOnly.ofExcept _) fun _ => ?_
  refine Tx.Atomic.bind (Tx.ReadOnly.ofExcept _) fun _ => ?_
  refine Tx.Atomic.bind (readOnly_demandPolicy _ _) fun _ => ?_
  exact Tx.Atomic.transaction _

/-- A bulk edit is all or nothing. -/
theorem editClientsMany_atomic (actor : Actor) (edits : List BulkEdit) :
    Tx.Atomic (editClientsMany actor edits) :=
  Tx.Atomic.bind (readOnly_demandPolicy _ _) fun _ => Tx.Atomic.transaction _

/-- A call that raises leaves the store as it was. -/
theorem Call.atomic (call : Call) : Tx.Atomic call.run := by
  cases call with
  | registerOwner actor owner volume unlimited maxClients manual quota uuid =>
      exact registerOwner_atomic _ _ _ _ _ _ _ _
  | adjustResourceCredit actor owner volume units eventId =>
      exact (adjustResourceCredit_atomic _ _ _ _ _).discard
  | registerClient actor clientId owner limitIp quota price orderId expiresAt days now =>
      exact (registerClient_atomic _ _ _ _ _ _ _ _ _ _).discard
  | editClient actor clientId edit now => exact Tx.Atomic.transaction _
  | editClientsMany actor edits => exact (editClientsMany_atomic _ _).discard
  | deleteClient actor clientId => exact Tx.Atomic.transaction _

/-- A row of a bulk edit either edits its client or fails without an effect. -/
theorem bulkRow_atomic (actor : Actor) (seen : List String) (item : BulkEdit) :
    Tx.Atomic (bulkRow actor seen item) := by
  unfold bulkRow
  split
  · refine Tx.Atomic.bind (readOnly_demandPolicy _ _) fun _ => ?_
    refine Tx.Atomic.bind (readOnly_demandPolicy _ _) fun _ => ?_
    exact Tx.Atomic.transaction _
  · exact Tx.Atomic.raise _

/-- A round of the loop that goes on has edited its client, or it has caught a
failure and changed nothing. -/
theorem bulkItem_ok {actor : Actor} {seen : List String} {item : BulkEdit} {s t : Store}
    {failed : Option Failure} (h : bulkItem actor seen item s = (.ok failed, t)) :
    (failed = none ∧ bulkRow actor seen item s = (.ok (), t)) ∨
      (∃ e, failed = some e ∧ t = s) := by
  have hatomic := bulkRow_atomic actor seen item s
  unfold bulkItem Tx.handle at h
  rw [Tx.bind_apply] at h
  rcases hrow : bulkRow actor seen item s with ⟨e | _, u⟩
  · have hu : u = s := hatomic e u hrow
    simp only [hrow] at h
    split at h <;> rename_i hcaught
    · split at hcaught
      · cases hcaught
        simp only [Tx.pure_apply, Prod.mk.injEq, Except.ok.injEq] at h
        exact .inr ⟨e, h.1.symm, h.2.symm.trans hu⟩
      · cases hcaught
    · simp at h
  · simp only [hrow, Tx.pure_apply, Prod.mk.injEq, Except.ok.injEq] at h
    rcases h with ⟨rfl, rfl⟩
    exact .inl ⟨rfl, rfl⟩

/-- A row of a bulk edit that fails has changed nothing. -/
theorem bulkItem_failed {actor : Actor} {seen : List String} {item : BulkEdit} {s t : Store}
    {e : Failure} (h : bulkItem actor seen item s = (.ok (some e), t)) : t = s := by
  rcases bulkItem_ok h with ⟨hnone, _⟩ | ⟨_, _, hsame⟩
  · cases hnone
  · exact hsame

end Policy
end DarkXray
