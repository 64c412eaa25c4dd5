import Mathlib.Data.Rat.Init
import DarkXray.Library.CanonicalForm
import DarkXray.Policy.Basics

/-!
# Desired-state envelopes

The Hub sends the Agent its whole configuration as one document with a revision and
a hash.  The Agent takes the document apart before it touches anything.

Main results:

- Theorem {lit}`validateEnvelope_ok`: an accepted envelope has a positive revision and
  the hash of its own payload.
-/

namespace DarkXray
namespace Nodes

open Library Policy

/-! ## Documents -/

/-- Values without parts; the numbers with a fraction or an exponent are {lit}`float`. -/
inductive Scalar where
  | null
  | bool (b : Bool)
  | int (n : ℤ)
  | float (q : ℚ)
  | str (s : String)

namespace Scalar

/-- The text that a value is. -/
def str? : Scalar → Option String
  | str s => some s
  | _ => none

/-- The Boolean that a value is. -/
def bool? : Scalar → Option Bool
  | bool b => some b
  | _ => none

/-- Integers; booleans are not integers here. -/
def int? : Scalar → Option ℤ
  | int n => some n
  | _ => none

/-- Equality with an integer, for which {lit}`True` is one and {lit}`False` is zero. -/
def equalsInt : Scalar → ℤ → Bool
  | int m, n => m = n
  | bool b, n => (if b then 1 else 0) = n
  | float q, n => q = n
  | _, _ => false

/-- The truth value of a value. -/
def truthy : Scalar → Bool
  | null => false
  | bool b => b
  | int n => n ≠ 0
  | float q => q ≠ 0
  | str s => s ≠ ""

end Scalar

/-- A text as a document. -/
def textDoc (s : String) : Doc Scalar :=
  .atom (.str s)

/-- An integer as a document. -/
def numberDoc (n : ℤ) : Doc Scalar :=
  .atom (.int n)

/-- A Boolean as a document. -/
def flagDoc (b : Bool) : Doc Scalar :=
  .atom (.bool b)

/-- The text that a document is. -/
def textOf (d : Doc Scalar) : Option String :=
  d.atom?.bind Scalar.str?

/-- A document reads as a text exactly if it is that text. -/
theorem textOf_eq_some_iff {d : Doc Scalar} {s : String} : textOf d = some s ↔ d = textDoc s := by
  cases d with
  | atom a => cases a <;> simp [textOf, textDoc, Doc.atom?, Scalar.str?]
  | list items => simp [textOf, textDoc, Doc.atom?]
  | dict fields => simp [textOf, textDoc, Doc.atom?]

/-- A text is canonical. -/
@[simp]
theorem canonical_textDoc (s : String) : (textDoc s).canonical = textDoc s :=
  Doc.canonical_atom _

/-- The integer that a document is. -/
def integerOf (d : Doc Scalar) : Option ℤ :=
  d.atom?.bind Scalar.int?

/-- The Boolean that a document is. -/
def booleanOf (d : Doc Scalar) : Option Bool :=
  d.atom?.bind Scalar.bool?

/-- The document equals an integer. -/
def equalsInt (d : Doc Scalar) (n : ℤ) : Bool :=
  d.atom?.any (·.equalsInt n)

/-- The truth value of a document. -/
def isTruthy : Doc Scalar → Bool
  | .atom a => a.truthy
  | .list items => !items.isEmpty
  | .dict fields => !fields.isEmpty

/-- An object with exactly the given keys. -/
def hasKeys (d : Doc Scalar) (names : List String) : Bool :=
  d.isDict && d.keys.all (· ∈ names) && names.all (· ∈ d.keys)

/-- What the validator takes from the standard library: the canonical text of a
document, its size in bytes and its SHA-256 digest; Base64 and the digest of bytes. -/
structure Codec where
  encodedSize : Doc Scalar → ℕ
  digest : Doc Scalar → String
  decode64 : String → Option (List UInt8)
  sha256 : List UInt8 → String

/-! ## Validation -/

/-- {lit}`STATE_SECTIONS`. -/
def stateSections : List String :=
  ["outbounds", "routing", "dns", "policy", "observatory", "ipguard"]

/-- A validated envelope. -/
structure Desired where
  revision : ℤ
  hash : String
  payload : Doc Scalar

/-- The value of an option, or {lit}`PolicyError`. -/
def need {α : Type} (o : Option α) (message : String) : Except Failure α :=
  o.elim (.error (.policyError message)) .ok

/-- Raise {lit}`PolicyError` unless a condition holds. -/
def check (p : Prop) [Decidable p] (message : String) : Except Failure Unit :=
  ensure p (.policyError message)

/-- {lit}`_canonical`; only the digest is used. -/
def canonical (c : Codec) (payload : Doc Scalar) : Except Failure String := do
  check (payload.isDict = true) "Desired state payload must be an object"
  check (c.encodedSize payload ≤ 8 * 1024 * 1024) "Desired state payload exceeds 8 MiB"
  return c.digest payload

/-- The checks of an assignment. -/
def checkAssignment (item : Doc Scalar) : Except Failure Unit := do
  check (hasKeys item ["sourceInboundId", "inbound", "clients"] = true) "Invalid node assignment"
  let clients ← need ((item.get? "clients").bind Doc.list?) "Invalid node assignment clients"
  check (clients.length ≤ 100000) "Invalid node assignment clients"

/-- The checks of a managed file; {lit}`ids` are those of the files before it.  The
result is its id and its size.  A kind that is a list or a dictionary raises as well,
though not a {lit}`PolicyError`. -/
def checkFile (c : Codec) (ids : List String) (item : Doc Scalar) : Except Failure (String × ℕ) := do
  check (hasKeys item ["id", "kind", "sha256", "data"] = true) "Invalid managed Node file"
  let fileId ← need ((item.get? "id").bind textOf) "Invalid or duplicate managed Node file ID"
  check (hexDigits 64 fileId = true ∧ fileId ∉ ids) "Invalid or duplicate managed Node file ID"
  let kind ← need ((item.get? "kind").bind textOf) "Invalid managed Node TLS metadata"
  let fileDigest ← need ((item.get? "sha256").bind textOf) "Invalid managed Node TLS metadata"
  let data ← need ((item.get? "data").bind textOf) "Invalid managed Node TLS metadata"
  check (kind ∈ ["certificate", "private-key"] ∧ fileDigest.length = 64)
    "Invalid managed Node TLS metadata"
  check (data.length ≤ 1400000) "Managed Node TLS content exceeds the file limit"
  let raw ← need (c.decode64 data) "Managed Node TLS content is not valid base64"
  check (raw ≠ [] ∧ raw.length ≤ 1024 * 1024 ∧ c.sha256 raw = fileDigest)
    "Managed Node TLS hash/size validation failed"
  return (fileId, raw.length)

/-- The loop over the managed files, with their total size so far. -/
def checkFiles (c : Codec) (ids : List String) (total : ℕ) : List (Doc Scalar) → Except Failure ℕ
  | [] => .ok total
  | item :: items => do
      let (fileId, size) ← checkFile c ids item
      checkFiles c (fileId :: ids) (total + size) items

/-- The checks of {lit}`_validate_envelope` on the payload. -/
def checkPayload (c : Codec) (payload : Doc Scalar) : Except Failure Unit := do
  check ((payload.get? "schema").any (equalsInt · 1) = true ∧
    ((payload.get? "nodeId").bind textOf).isSome = true) "Unsupported desired-state schema"
  check ((payload.get? "sections").any (hasKeys · stateSections) = true)
    "Desired-state sections are incomplete"
  let assignments ← need ((payload.get? "assignments").bind Doc.list?)
    "Invalid desired-state assignments"
  check (assignments.length ≤ 256) "Invalid desired-state assignments"
  assignments.forM checkAssignment
  check ((payload.get? "security").any fun security => security.isDict &&
    (((security.get? "clients").getD (.list [])).list?).isSome)
    "Invalid desired-state security policy"
  let files ← need ((payload.get? "files").getD (.list [])).list? "Invalid managed Node file set"
  check (files.length ≤ 512) "Invalid managed Node file set"
  let total ← checkFiles c [] 0 files
  check (total ≤ 4 * 1024 * 1024) "Managed Node TLS payload exceeds 4 MiB"
  check ((booleanOf ((payload.get? "desiredRunning").getD (flagDoc true))).isSome = true)
    "Invalid desiredRunning"

/-- {lit}`_validate_envelope`. -/
def validateEnvelope (c : Codec) (envelope : Doc Scalar) : Except Failure Desired := do
  check (hasKeys envelope ["revision", "hash", "payload"] = true) "Invalid desired-state envelope"
  let revision ← need ((envelope.get? "revision").bind integerOf)
    "Desired-state revision must be positive"
  check (1 ≤ revision) "Desired-state revision must be positive"
  let hash ← need ((envelope.get? "hash").bind textOf) "Invalid desired-state hash"
  check (hash.length = 64) "Invalid desired-state hash"
  let payload ← need (envelope.get? "payload") "Desired state payload must be an object"
  let actual ← canonical c payload
  check (actual = hash) "Desired-state hash mismatch"
  checkPayload c payload
  return ⟨revision, hash, payload⟩

/-! ## Fields of an accepted payload -/

/-- {lit}`payload['nodeId']`. -/
def payloadNodeId (payload : Doc Scalar) : String :=
  ((payload.get? "nodeId").bind textOf).getD ""

/-- {lit}`payload['sections'][name]`. -/
def sectionBody (payload : Doc Scalar) (name : String) : Doc Scalar :=
  ((payload.get? "sections").bind (·.get? name)).getD (.atom .null)

/-- {lit}`payload.get('desiredRunning',True)`. -/
def payloadRunning (payload : Doc Scalar) : Bool :=
  ((payload.get? "desiredRunning").bind booleanOf).getD true

/-- An accepted envelope has a positive revision and the hash of its own payload. -/
theorem validateEnvelope_ok {c : Codec} {envelope : Doc Scalar} {d : Desired}
    (h : validateEnvelope c envelope = .ok d) :
    1 ≤ d.revision ∧ d.hash = c.digest d.payload ∧ d.hash.length = 64 := by
  simp only [validateEnvelope, check, canonical, except_bind_ok_iff, ensure_ok_iff,
    except_pure_ok_iff] at h
  obtain ⟨_, _, revision, _, _, hrevision, hash, _, _, hlength, payload, _, actual, hactual, _,
    hhash, _, _, rfl⟩ := h
  obtain ⟨_, _, _, _, rfl⟩ := hactual
  exact ⟨hrevision, hhash.symm, hlength⟩

end Nodes
end DarkXray
