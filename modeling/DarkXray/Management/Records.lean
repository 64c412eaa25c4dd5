import DarkXray.Core.Clients
import DarkXray.Policy.Cycles
import DarkXray.Policy.Operations
import DarkXray.Usage.Charges

/-!
# Managed clients

The rows and documents of {lit}`Manager`: what the panel wants of a client, how far the core
has followed, and what the core itself keeps.  Every call to the core may fail, and the process
may stop between any two of its transactions.

Main definitions:

- {lit}`validateClient`: the checks of a payload.
- {lit}`Panel`: the database, and what the world will do next.
- {lit}`commit`: a transaction of its own, before which the process may end.
-/

namespace DarkXray
namespace Management

open Library Policy Usage
open DarkXray.Core (Record ClientRow ClientStore sortedSet sameSubId emailRe writable)

/-! ## Exceptions -/

/-- How a call stops: an exception of the policy store, a {lit}`CoreError` with its status, an
exception that no handler of the manager names, or the end of the process. -/
inductive Halt where
  | failure (f : Failure)
  | coreError (message : String) (status : ℕ)
  | escaped (name : String)
  | crash
deriving DecidableEq, Repr

/-- A {lit}`PolicyError`. -/
def policyError (message : String) : Halt :=
  .failure (.policyError message)

/-- An exception of the core. -/
def Halt.ofFault : Core.Fault → Halt
  | .coreError message status => .coreError message status
  | .raised name => .escaped name

/-- What {lit}`except (CoreError, PolicyError)` catches. -/
def Halt.caught : Halt → Bool
  | .failure (.coreError _) => true
  | .failure f => f.isPolicyError
  | .coreError _ _ => true
  | .escaped _ => false
  | .crash => false

/-- What {lit}`except PolicyError` catches. -/
def Halt.isPolicyError : Halt → Bool
  | .failure f => f.isPolicyError
  | _ => false

/-- What {lit}`except sqlite3.IntegrityError` catches. -/
def Halt.isIntegrityError (h : Halt) : Bool :=
  h = .failure .integrityError || h = .escaped "IntegrityError"

/-- What {lit}`except (PolicyError, CoreError, ValueError, TypeError)` catches. -/
def Halt.caughtInBatch (h : Halt) : Bool :=
  h.caught || h = .escaped "ValueError" || h = .escaped "TypeError"

/-- What {lit}`except Exception` catches. -/
def Halt.isException : Halt → Bool
  | .crash => false
  | _ => true

/-- The text of an exception. -/
def Halt.message : Halt → String
  | .failure f => f.message
  | .coreError message _ => message
  | .escaped name => name
  | .crash => ""

/-- A {lit}`CoreError` with status 409. -/
def Halt.isConflict : Halt → Bool
  | .coreError _ status => status = 409
  | _ => false

/-! ## Payloads -/

/-- Functions of the Python library that the manager calls on texts; {lit}`random` gives the
text of a random draw. -/
structure Texts where
  strip : String → String
  lower : String → String
  int : String → Option ℤ
  isUuid : String → Bool
  digest : String → String
  random : ℕ → String
  lower_lower : ∀ s, lower (lower s) = lower s

/-- A document as an argument of a check. -/
def valueOf : Doc → Value
  | .atom .null => .none
  | .atom (.bool b) => .bool b
  | .atom (.int n) => .int n
  | .atom (.str s) => .str s
  | _ => .other

/-- {lit}`int(x)`. -/
def intOf (texts : Texts) : Doc → Except Halt ℤ
  | .atom (.bool b) => .ok b.toInt
  | .atom (.int n) => .ok n
  | .atom (.str s) => (texts.int s).elim (.error (.escaped "ValueError")) .ok
  | _ => .error (.escaped "TypeError")

/-- {lit}`int(d.get(key, 0))`. -/
def intAt (texts : Texts) (d : Doc) (key : String) : Except Halt ℤ :=
  (d.get? key).elim (.ok 0) (intOf texts)

/-- {lit}`int(d.get(key) or 0)`. -/
def intOr0 (texts : Texts) (d : Doc) (key : String) : Except Halt ℤ :=
  if d.truthyAt key = true then intAt texts d key else .ok 0

/-- {lit}`CLIENT_KEYS`. -/
def clientKeys : List String :=
  ["id", "password", "auth", "flow", "security", "reverse", "limitIp", "limitHwid", "totalGB",
    "expiryTime", "enable", "tgId", "subId", "group", "comment", "reset", "resetDay", "resetCount",
    "resetTraffic", "resetTrafficDay", "encryption"]

/-- A field is an integer in a range, if it is there. -/
def integerAt (d : Doc) (key : String) (minimum maximum : ℤ) : Except Failure Unit :=
  match d.get? key with
  | none => .ok ()
  | some v => do
      let _ ← integer (valueOf v) minimum maximum
      return ()

/-- The integer in a field; everything else counts as zero. -/
def limitOf (d : Doc) (key : String) : ℤ :=
  ((d.get? key).bind Doc.int?).getD 0

/-- {lit}`resetTraffic` is a known mode, if it is there; the empty one becomes
{lit}`never`. -/
def resetTrafficOf (d : Doc) : Except Failure Doc :=
  match d.get? "resetTraffic" with
  | none => .ok d
  | some v => do
      ensure ((v.str?.getD "?") ∈ ["", "never", "hourly", "daily", "weekly", "monthly"])
        (.policyError "resetTraffic must be never, hourly, daily, weekly or monthly")
      return if v.str? = some "" then d.set "resetTraffic" (.str "never") else d

/-- The schedule of resets is consistent. -/
def checkSchedule (d : Doc) : Except Failure Unit := do
  let mode := ((d.get? "resetTraffic").bind Doc.str?).getD "never"
  let days := limitOf d "reset"
  let day := limitOf d "resetTrafficDay"
  ensure (¬(mode ≠ "never" ∧ days ≠ 0))
    (.policyError "Choose either a calendar traffic reset or a custom day interval, not both")
  ensure (¬(mode = "monthly" ∧ ¬(1 ≤ day ∧ day ≤ 31)))
    (.policyError "Monthly traffic reset requires resetTrafficDay from 1 to 31")
  ensure (¬(mode ≠ "monthly" ∧ day ≠ 0))
    (.policyError "resetTrafficDay is only valid for monthly traffic reset")

/-- A field is a text of moderate length, if it is there. -/
def textAt (d : Doc) (key : String) : Except Failure Unit :=
  ensure ((d.get? key).elim true fun v => v.str?.elim false fun s => s.length ≤ 4096)
    (.policyError ("Invalid " ++ key))

/-- The shapes of the other fields. -/
def checkShapes (texts : Texts) (d : Doc) : Except Failure Unit := do
  ensure ((d.get? "expiryTime").elim true fun v => v.int?.elim false fun n => 0 ≤ n ∧ n ≤ maxInt)
    (.policyError "Invalid expiryTime")
  ensure ((d.get? "enable").elim true fun v => v.bool?.isSome)
    (.policyError "enable must be boolean")
  ["id", "password", "auth", "subId", "flow", "security", "group", "comment",
    "encryption"].forM (textAt d)
  ensure ((d.get? "flow").elim true fun v =>
      (v.str?.getD "?") ∈ ["", "xtls-rprx-vision", "xtls-rprx-vision-udp443"])
    (.policyError "Unknown flow")
  ensure (((d.get? "id").bind Doc.str?).elim true fun s => s = "" || texts.isUuid s)
    (.policyError "Invalid UUID")

/-- The identity in a payload: {lit}`str(out.get('email',''))`. -/
def emailText (d : Doc) : String :=
  match d.get? "email" with
  | none => ""
  | some (.atom a) => a.text
  | some _ => "[?]"

/-- {lit}`Manager.validate_client`. -/
def validateClient (texts : Texts) (data : Doc) (part : Bool) : Except Failure Doc := do
  ensure (data.isDict = true ∧ ∀ field ∈ data.dict?.getD [], field.1 ∈ "email" :: clientKeys)
    (.policyError "Unknown client field")
  integerAt data "limitIp" 0 1000
  integerAt data "limitHwid" 0 1000
  integerAt data "totalGB" 0 maxInt
  integerAt data "tgId" 0 maxInt
  integerAt data "reset" 0 maxInt
  integerAt data "reset" 0 3650
  integerAt data "resetCount" 0 100000
  ensure (data.truthyAt "resetDay" = false) (.policyError
    "Legacy resetDay is not used by DARK; use resetTrafficDay for monthly traffic reset")
  let out ← resetTrafficOf data
  integerAt out "resetTrafficDay" 0 31
  checkSchedule out
  checkShapes texts out
  ensure (part = true ∨ emailRe (emailText out) = true) (.policyError "Invalid email/identity")
  return out

/-- {lit}`Manager._group_name`. -/
def groupName (texts : Texts) (name : Doc) : Except Failure String := do
  match name.str? with
  | none => .error (.policyError "Invalid group name")
  | some name => do
      let name := texts.strip name
      ensure (1 ≤ name.length ∧ name.length ≤ 64 ∧
          ∀ c ∈ name.toList, 32 ≤ c.toNat ∧ c ≠ '/' ∧ c.toNat ≠ 92)
        (.policyError "Invalid group name")
      return name

/-! ## Tables -/

/-- A row of {lit}`owner_profiles`; {lit}`pref` is its {lit}`prefix`. -/
structure Profile where
  name : String
  allowed : List ℤ
  pref : String
  maxClientIps : ℤ
  maxClientHwid : ℤ
deriving DecidableEq, Repr

/-- A row of {lit}`managed_clients` without its metering columns; a missing operation
identifier is the empty text. -/
structure ManagedRow where
  desired : Record
  inbounds : List ℤ
  op : PendingOp
  opId : Option ℕ
  state : ManagedState
  error : String
  expectedEnable : Option Bool
  externalDisabled : Bool
  retryAt : ℚ
  attempts : ℕ

/-- What the outside world does at one point of a call: it answers, with the bytes that every
client moved in the meantime, it fails, or the process ends. -/
inductive Answer where
  | answers (samples : List (String × ℕ × ℕ))
  | fails (h : Halt)
  | crashes

/-- The database of the Hub, as far as the manager and the core use it.  The columns of
{lit}`clients` and {lit}`managed_clients` that metering uses are in {lit}`accounts`;
{lit}`blocked` is {lit}`global_ip_block or global_device_block`.  {lit}`resets` lists the clients
whose counters the core has set to zero; {lit}`script` is what the world will do next. -/
structure Panel where
  policy : Store
  accounts : Accounts
  blocked : String → Bool
  profiles : Table String Profile
  managed : Table String ManagedRow
  cycles : Table String Cycle
  groups : List (String × String)
  core : Table String ClientRow
  tombstones : Table String ClientRow
  resets : List String
  inbounds : List (ℤ × Doc)
  writesEnabled : Bool
  tokens : ℕ
  script : List Answer

/-- Calls of the manager. -/
abbrev Call (α : Type) := Tx Panel Halt α

/-- What a call finds when it starts: the clock, the time zone of the panel, and the library. -/
structure Setting where
  texts : Texts
  now : ℚ
  offset : ℤ

/-! ## The outside world -/

/-- What the world does next. -/
def nextAnswer : Call Answer := do
  let answer ← Tx.read fun s => s.script.head?.getD (.answers [])
  Tx.write fun s => { s with script := s.script.tail }
  return answer

/-- A call to the core or to a Node, which may fail. -/
def reach : Call (List (String × ℕ × ℕ)) := do
  match ← nextAnswer with
  | .answers samples => return samples
  | .fails h => Tx.raise h
  | .crashes => Tx.raise .crash

/-- The process may end here. -/
def point : Call Unit := do
  match ← nextAnswer with
  | .crashes => Tx.raise .crash
  | _ => return ()

/-- A transaction of its own; the process may end before it. -/
def commit {α : Type} (m : Call α) : Call α := do
  point
  Tx.transaction m

/-- An exception of the policy store. -/
def ofFailure {α : Type} (x : Except Failure α) : Call α :=
  Tx.mapError Halt.failure (Tx.ofExcept x)

/-- A procedure of the policy store. -/
def onPolicy {α : Type} (m : Tx Store Failure α) : Call α :=
  Tx.within Panel.policy (fun policy s => { s with policy := policy }) (Tx.mapError Halt.failure m)

/-- A procedure on the metering columns. -/
def onAccounts {α : Type} (m : Tx Accounts Failure α) : Call α :=
  Tx.within Panel.accounts (fun accounts s => { s with accounts := accounts })
    (Tx.mapError Halt.failure m)

/-- What the client operations of the core work on. -/
def Panel.clientStore (s : Panel) : ClientStore where
  writesEnabled := s.writesEnabled
  inboundIds := s.inbounds.map Prod.fst
  clients := s.core

/-- A client operation of the core. -/
def onCore {α : Type} (m : Tx ClientStore Core.Fault α) : Call α :=
  Tx.within Panel.clientStore (fun c s => { s with core := c.clients })
    (Tx.mapError Halt.ofFault m)

/-- Refuse with a {lit}`PolicyError` unless a condition holds. -/
def demand (p : Prop) [Decidable p] (message : String) : Call Unit :=
  Tx.require p (policyError message)

/-- Change the row of a client in {lit}`managed_clients`. -/
def setManaged (email : String) (f : ManagedRow → ManagedRow) : Call Unit :=
  Tx.write fun s => { s with managed := s.managed.update email f }

/-- {lit}`Manager.audit`. -/
def audit (actor owner action target detail : String) : Call Unit :=
  commit (Tx.write fun s => { s with
    accounts := { s.accounts with
      audit := s.accounts.audit ++ [⟨actor, owner, action, target, (detail.take 500).toString⟩] } })

/-- {lit}`secrets.token_hex`: a number that was never drawn. -/
def token : Call ℕ := do
  let n ← Tx.read Panel.tokens
  Tx.write fun s => { s with tokens := s.tokens + 1 }
  return n

end Management
end DarkXray
