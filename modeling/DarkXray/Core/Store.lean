import DarkXray.Library.Documents
import DarkXray.Library.Tables
import DarkXray.Library.Transactions

/-!
# The store of the core engine

The rows and sections that {lit}`CoreEngine` keeps, and the checks on values that its
editors share.

Main results:

- Theorem {lit}`check_ok_iff`: a check passes exactly if its condition holds.
- Theorem {lit}`insist_ok_iff`: a field is read exactly if it has the required shape.
-/

namespace DarkXray
namespace Core

open Library

/-! ## Exceptions -/

/-- Exceptions: a {lit}`CoreError` with its status, or one of the interpreter. -/
inductive Fault where
  | coreError (message : String) (status : ℕ)
  | raised (name : String)
deriving DecidableEq, Repr

/-- A {lit}`CoreError` with the usual status. -/
def coreError (message : String) : Fault :=
  .coreError message 422

/-- Refuse with a {lit}`CoreError` unless a condition holds. -/
def check (ok : Bool) (message : String) : Except Fault Unit :=
  if ok then .ok () else .error (coreError message)

/-- Read a value of the required shape. -/
def insist {α : Type} (x : Option α) (message : String) : Except Fault α :=
  x.elim (.error (coreError message)) .ok

/-- A check passes exactly if its condition holds. -/
@[simp]
theorem check_ok_iff {ok : Bool} {message : String} {u : Unit} :
    check ok message = .ok u ↔ ok = true := by
  unfold check
  by_cases h : ok = true
  · simp [h]
  · simp [h]

/-- A field is read exactly if it has the required shape. -/
@[simp]
theorem insist_ok_iff {α : Type} {x : Option α} {message : String} {a : α} :
    insist x message = .ok a ↔ x = some a := by
  cases x with
  | none => simp [insist]
  | some b => simp [insist]

/-! ## Configuration -/

/-- Functions of the Python library that the checks call; {lit}`compact` is
{lit}`json.dumps` without blanks. -/
structure Builtins where
  dumps : Doc → String
  compact : Doc → String
  loads : String → Option Doc
  strip : String → String
  lower : String → String
  isSpace : Char → Bool
  isDigit : String → Bool
  int : String → Option ℤ
  ipAddress : Atom → Bool

/-- The number of a text of ASCII digits. -/
def asciiInt (s : String) : Option ℤ :=
  if s ≠ "" ∧ s.toList.all Char.isDigit then some (Nat.ofDigitChars 10 s.toList 0) else none

/-- An IPv4 address in dotted form. -/
def dottedQuad (s : String) : Bool :=
  let parts := (s.toList.splitOn '.').map String.ofList
  parts.length = 4 && parts.all fun part => (asciiInt part).elim false fun n => n ≤ 255

/-- The functions on documents whose texts are printable ASCII without escapes and contain no
further documents. -/
def Builtins.ascii : Builtins where
  dumps := Doc.render ", " ": "
  compact := Doc.render "," ":"
  loads := fun _ => none
  strip := fun s => String.ofList
    ((s.toList.dropWhile (· = ' ')).reverse.dropWhile (· = ' ')).reverse
  lower := String.toLower
  isSpace := (· = ' ')
  isDigit := fun s => s ≠ "" && s.toList.all Char.isDigit
  int := asciiInt
  ipAddress
    | .str s => dottedQuad s
    | _ => false

instance lawfulBEqOptionString : LawfulBEq (Option String) :=
  inferInstance

/-- The fields of {lit}`Config` that the editors read. -/
structure Config where
  writesEnabled : Bool
  protectedPorts : List ℕ
deriving DecidableEq, Repr

/-- Characters that {lit}`TAG_RE` admits. -/
def tagChar (c : Char) : Bool :=
  c.isAlphanum || c ∈ ['_', '.', '-']

/-- {lit}`TAG_RE.fullmatch`. -/
def tagRe (s : String) : Bool :=
  1 ≤ s.length && s.length ≤ 128 && s.toList.all tagChar

/-- Characters of a Node id in the name of its runtime. -/
def nodeChar (c : Char) : Bool :=
  c.isAlphanum || c ∈ ['_', '.', '@', '+', '-']

/-- A runtime is {lit}`local` or {lit}`node:<id>`. -/
def runtimeRe (s : String) : Bool :=
  s = "local" ||
    ("node:".toList.isPrefixOf s.toList &&
      (1 ≤ (s.toList.drop 5).length && (s.toList.drop 5).length ≤ 128 &&
        (s.toList.drop 5).all nodeChar))

/-- The port numbers. -/
structure Port where
  number : ℕ
  inRange : 1 ≤ number ∧ number ≤ 65535
deriving DecidableEq

/-- The port of HTTPS. -/
theorem https_inRange : 1 ≤ 443 ∧ 443 ≤ 65535 := by
  decide

/-- {lit}`type(port)is int and 1<=port<=65535`. -/
def Port.ofDoc? (d : Doc) : Option Port :=
  d.int?.bind fun n =>
    if h : 1 ≤ n.toNat ∧ n.toNat ≤ 65535 then some ⟨n.toNat, h⟩ else none

/-- The document of a port. -/
def Port.doc (p : Port) : Doc :=
  Doc.int p.number

@[simp]
theorem Port.ofDoc?_doc (p : Port) : Port.ofDoc? p.doc = some p := by
  have hrange := p.inRange
  have hnumber : ((p.number : ℤ)).toNat = p.number := Int.toNat_natCast p.number
  have hread : Port.ofDoc? p.doc = if h : 1 ≤ ((p.number : ℤ)).toNat ∧
      ((p.number : ℤ)).toNat ≤ 65535 then some ⟨((p.number : ℤ)).toNat, h⟩ else none := rfl
  rw [hread, dif_pos (by omega)]
  simp only [hnumber]

/-- {lit}`_write`: local writes are enabled. -/
def Config.write (cfg : Config) : Except Fault Unit :=
  if cfg.writesEnabled then .ok () else .error (.coreError "Local writes disabled" 409)

/-! ## Rows -/

/-- {lit}`PROTOCOLS`. -/
inductive Protocol where
  | vless
  | vmess
  | trojan
  | shadowsocks
  | socks
  | http
  | dokodemoDoor
  | tunnel
deriving DecidableEq, Repr

/-- The name of a protocol. -/
def Protocol.name : Protocol → String
  | vless => "vless"
  | vmess => "vmess"
  | trojan => "trojan"
  | shadowsocks => "shadowsocks"
  | socks => "socks"
  | http => "http"
  | dokodemoDoor => "dokodemo-door"
  | tunnel => "tunnel"

/-- All protocols. -/
def Protocol.all : List Protocol :=
  [vless, vmess, trojan, shadowsocks, socks, http, dokodemoDoor, tunnel]

/-- The protocol of a name. -/
def Protocol.ofDoc? (d : Doc) : Option Protocol :=
  d.str?.bind fun s => Protocol.all.find? fun p => p.name = s

/-- The body of a row of {lit}`core_inbounds`. -/
structure Inbound where
  remark : String
  protocol : Protocol
  listen : Atom
  port : Port
  enable : Bool
  tag : String
  settings : Doc
  streamSettings : Doc
  sniffing : Doc
  panelMeta : Doc

/-- The stored document of an inbound. -/
def Inbound.body (v : Inbound) : Doc :=
  .dict [("remark", .str v.remark), ("protocol", .str v.protocol.name), ("listen", .atom v.listen),
    ("port", v.port.doc), ("enable", .bool v.enable), ("tag", .str v.tag),
    ("settings", v.settings), ("streamSettings", v.streamSettings), ("sniffing", v.sniffing),
    ("panelMeta", v.panelMeta)]

/-- A row of {lit}`core_clients`. -/
structure CoreClient where
  body : Doc
  inboundIds : List ℕ

/-- The tables of the engine.  {lit}`nextId` is the next number of the primary key of
{lit}`core_inbounds`, {lit}`managed` are the inbounds of the rows of
{lit}`managed_clients` that are not deleted, and a section without a row is its
default. -/
structure CoreStore where
  inbounds : Table ℕ Inbound
  nextId : ℕ
  clients : List CoreClient
  managed : List (List ℕ)
  outbounds : List Doc
  routing : Doc
  hosts : List Doc

/-- The defaults of the sections. -/
def CoreStore.fresh : CoreStore where
  inbounds := Table.empty
  nextId := 1
  clients := []
  managed := []
  outbounds :=
    [.dict [("tag", .str "direct"), ("protocol", .str "freedom"), ("settings", .dict [])],
      .dict [("tag", .str "block"), ("protocol", .str "blackhole"), ("settings", .dict [])]]
  routing := .dict [("domainStrategy", .str "AsIs"), ("rules", .list [])]
  hosts := []

end Core
end DarkXray
