import DarkXray.Core.BuildConfig
import DarkXray.Library.Utf8
import DarkXray.Policy.Broker

/-!
# The access log

Xray writes a line to {lit}`access.log` for every connection that it accepts.  The engine reads
the new bytes of the file, a mebibyte at a time, cuts them into lines and observes the client and
the source address of each line, unless the line comes from a tunnel listener, whose source is a
peer.

Which characters count as parts of words and as decimal digits is a parameter.

Main results:

- Theorem {lit}`parseAccessLine_of_long`: no line of more than 16384 characters is parsed.
- Theorem {lit}`observeLines_calls`: the calls of a read are those of its lines, unless one of
  them raises.
-/

namespace DarkXray
namespace Core

open Library
open Policy (IpLibrary normalizeIp)

/-! ## Regular expressions -/

/-- The tables of {lit}`re` for {lit}`\w` and {lit}`\d`; a decimal digit has a value. -/
structure CharTables where
  isWord : Char → Bool
  decimal : Char → Option ℕ

/-- A regular expression of {lit}`re`, with one group at most; its repetitions are greedy. -/
inductive Pattern where
  | empty
  /-- A character of a class. -/
  | one (p : Char → Bool)
  /-- Characters of a class, as many as possible between two bounds. -/
  | many (least : ℕ) (most : Option ℕ) (p : Char → Bool)
  /-- {lit}`^`. -/
  | start
  /-- {lit}`$`. -/
  | finish
  /-- {lit}`\b`. -/
  | boundary
  | ahead (p : Pattern)
  | group (p : Pattern)
  | seq (p q : Pattern)
  | either (p q : Pattern)

/-- Where a match stands: the character before it, the characters after it, and its group. -/
structure Scan where
  before : Option Char
  rest : List Char
  captured : List Char

/-- The scan goes on by some characters. -/
def Scan.advance (s : Scan) (n : ℕ) : Scan :=
  { s with before := (s.rest.take n).getLast?.or s.before, rest := s.rest.drop n }

/-- The ends of all matches of a pattern, in the order in which {lit}`re` tries them. -/
def Pattern.ends (tables : CharTables) : Pattern → Scan → List Scan
  | empty, s => [s]
  | one p, s => if s.rest.head?.any p then [s.advance 1] else []
  | many least most p, s =>
      let longest := (s.rest.takeWhile p).length
      let longest := most.elim longest (min longest)
      ((List.range' least (longest + 1 - least)).map s.advance).reverse
  | start, s => if s.before = none then [s] else []
  | finish, s => if s.rest = [] ∨ s.rest = ['\n'] then [s] else []
  | boundary, s =>
      if s.before.any tables.isWord ≠ s.rest.head?.any tables.isWord then [s] else []
  | ahead p, s => if p.ends tables s = [] then [] else [s]
  | group p, s =>
      (p.ends tables s).map fun t =>
        { t with captured := s.rest.take (s.rest.length - t.rest.length) }
  | seq p q, s => (p.ends tables s).flatMap (q.ends tables)
  | either p q, s => p.ends tables s ++ q.ends tables s

/-- The first match at or after a place of a text. -/
def Pattern.searchFrom (tables : CharTables) (p : Pattern) (before : Option Char) :
    List Char → Option Scan
  | [] => (p.ends tables ⟨before, [], []⟩).head?
  | c :: cs => ((p.ends tables ⟨before, c :: cs, []⟩).head?).or (p.searchFrom tables (some c) cs)

/-- {lit}`re.search(p, text)`: the group of the first match. -/
def Pattern.search (tables : CharTables) (p : Pattern) (text : List Char) : Option (List Char) :=
  (p.searchFrom tables none text).map Scan.captured

/-- The characters of a text. -/
def literal (text : String) : Pattern :=
  text.toList.foldr (fun c p => .seq (.one (· = c)) p) .empty

/-- Patterns one after another. -/
def sequence (ps : List Pattern) : Pattern :=
  ps.foldr .seq .empty

/-- {lit}`\s`. -/
def space : Char → Bool :=
  Access.isSpace

/-- {lit}`[0-9a-fA-F:.]`. -/
def addressChar (c : Char) : Bool :=
  c.isDigit || decide ('a' ≤ c ∧ c ≤ 'f') || decide ('A' ≤ c ∧ c ≤ 'F') || c = ':' || c = '.'

/-- {lit}`[A-Za-z0-9_.@+\-]`. -/
def emailChar (c : Char) : Bool :=
  c.isAlphanum || c ∈ ['_', '.', '@', '+', '-']

/-- {lit}`[A-Za-z0-9_.:@+\-]`. -/
def inboundChar (c : Char) : Bool :=
  emailChar c || c = ':'

/-- {lit}`(?:tcp|udp):`. -/
def schemePattern : Pattern :=
  .either (literal "tcp:") (literal "udp:")

/-- The pattern of an accepted source. -/
def sourcePattern (tables : CharTables) : Pattern :=
  sequence [.either .start (.one space),
    .either (.seq (literal "from") (.many 1 none space)) .empty,
    .group (sequence [.either schemePattern .empty,
      .either (sequence [literal "[", .many 1 none addressChar, literal "]"])
        (.many 1 none addressChar),
      literal ":", .many 1 none fun c => (tables.decimal c).isSome]),
    .many 1 none space, literal "accepted", .one space]

/-- The pattern of a client. -/
def userPattern : Pattern :=
  sequence [.boundary, literal "email:", .many 0 none space, .group (.many 1 (some 128) emailChar),
    .ahead (.either (.either (.one space) (literal "]")) .finish)]

/-- The pattern of an inbound tag. -/
def inboundPattern : Pattern :=
  sequence [literal "[", .group (.many 1 (some 128) inboundChar), .many 1 none space,
    .either (literal ">>") (literal "->")]

/-! ## Lines -/

/-- {lit}`Observation`, without its time. -/
structure AccessObservation where
  email : String
  ip : String
  inboundTag : Option String
deriving DecidableEq

/-- {lit}`re.sub(r"^(?:tcp|udp):", "", source)`. -/
def stripScheme (source : List Char) : List Char :=
  if "tcp:".toList.isPrefixOf source || "udp:".toList.isPrefixOf source then source.drop 4
  else source

/-- {lit}`source.rsplit(":", 1)`; it has one part when there is no colon. -/
def rsplitColon (source : List Char) : Option (List Char × List Char) :=
  if ':' ∈ source then
    let port := (source.reverse.takeWhile (· ≠ ':')).reverse
    some (source.take (source.length - port.length - 1), port)
  else none

/-- {lit}`int(port)` of decimal digits; more than 4300 are refused. -/
def intOfDigits (tables : CharTables) (port : List Char) : Option ℕ :=
  if 4300 < port.length then none
  else (port.mapM tables.decimal).map fun digits => digits.foldl (fun n d => 10 * n + d) 0

variable {α : Type} (lib : IpLibrary α) (tables : CharTables)

/-- The address of a source whose port is one. -/
def sourceIp (source : List Char) : Option String := do
  let (host, port) ← rsplitColon (stripScheme source)
  let number ← intOfDigits tables port
  if 1 ≤ number ∧ number ≤ 65535 then
    (normalizeIp lib (.value (.str (String.ofList host)))).toOption
  else none

/-- {lit}`parse_access_line`. -/
def parseAccessLine (line : List Char) : Option AccessObservation := do
  if 16384 < line.length ∨ (literal " accepted ").search tables line = none then none
  else
    let source ← (sourcePattern tables).search tables line
    let email ← userPattern.search tables line
    let ip ← sourceIp lib tables source
    pure ⟨String.ofList email, ip, (inboundPattern.search tables line).map String.ofList⟩

/-- No longer line is parsed. -/
theorem parseAccessLine_of_long {line : List Char} (h : 16384 < line.length) :
    parseAccessLine lib tables line = none :=
  if_pos (Or.inl h)

/-! ## Listeners -/

/-- What a read uses of {lit}`ip_source_coverage`. -/
structure SourceCoverage where
  directTags : List String
  opaqueTunnelTags : List String

/-- {lit}`ip_source_coverage`: the tags of the enabled inbounds and of their tunnel listeners. -/
def ipSourceCoverage (s : CoreStore) : SourceCoverage where
  directTags := s.inbounds.rows.filterMap fun row =>
    if row.2.enable ∧ row.2.tag ≠ "" then some row.2.tag else none
  opaqueTunnelTags := s.inbounds.rows.filterMap fun row =>
    if row.2.enable then (localPort row.2.panelMeta).map (tunnelTag row.1) else none

/-- An observation is of a tunnel listener, or may be: its tag is one of a tunnel or none of a
primary listener, or it has none while there are tunnels. -/
def SourceCoverage.ignores (coverage : SourceCoverage) (tag : Option String) : Bool :=
  match tag with
  | some tag => tag ∈ coverage.opaqueTunnelTags ||
      (!coverage.directTags.isEmpty && tag ∉ coverage.directTags)
  | none => !coverage.opaqueTunnelTags.isEmpty

/-- The arguments with which a line is observed. -/
def wanted (coverage : SourceCoverage) (line : List Char) : Option (String × String) :=
  (parseAccessLine lib tables line).bind fun obs =>
    if coverage.ignores obs.inboundTag then none else some (obs.email, obs.ip)

theorem wanted_of_long {line : List Char} (coverage : SourceCoverage) (h : 16384 < line.length) :
    wanted lib tables coverage line = none := by
  rw [wanted, parseAccessLine_of_long lib tables h, Option.bind_none]

/-! ## A read -/

/-- What the loop over the lines of a read has done: its calls of {lit}`Guard.observe`, how many
lines it ignored, and the error that ended it. -/
structure LineOutcome where
  calls : List (String × String)
  ignored : ℕ
  error : Option String

/-- The loop over the lines of a read; the calls of {lit}`Guard.observe` are numbered. -/
def observeLines (coverage : SourceCoverage) (observe : ℕ → Except String Unit) :
    List (List Char) → ℕ → LineOutcome
  | [], _ => ⟨[], 0, none⟩
  | line :: lines, n =>
      match parseAccessLine lib tables line with
      | none => observeLines coverage observe lines n
      | some obs =>
          if coverage.ignores obs.inboundTag then
            let later := observeLines coverage observe lines n
            { later with ignored := later.ignored + 1 }
          else
            match observe n with
            | .error message => ⟨[(obs.email, obs.ip)], 0, some message⟩
            | .ok () =>
                let later := observeLines coverage observe lines (n + 1)
                { later with calls := (obs.email, obs.ip) :: later.calls }

/-- A file of the file system: its device and number, and its bytes. -/
structure LogFile where
  identity : ℕ × ℕ
  content : List UInt8
deriving DecidableEq

/-- The fields of the engine for the access log. -/
structure LogReader where
  accessInode : Option (ℕ × ℕ)
  accessPosition : ℕ
  accessFragment : List Char
  ipError : String
  opaqueIgnored : ℕ
deriving DecidableEq

/-- The fields of a new engine: what the file has already is not read. -/
def LogReader.init (file : Option LogFile) : LogReader where
  accessInode := file.map LogFile.identity
  accessPosition := file.elim 0 fun f => f.content.length
  accessFragment := []
  ipError := ""
  opaqueIgnored := 0

/-- The first steps of a read: another file, or a shorter one, is read from its start. -/
def LogReader.locate (r : LogReader) (file : LogFile) : LogReader :=
  let r := if r.accessInode = none then
    { r with accessInode := some file.identity, accessPosition := 0 } else r
  if r.accessInode ≠ some file.identity ∨ file.content.length < r.accessPosition then
    { r with accessPosition := 0, accessFragment := [], accessInode := some file.identity }
  else r

/-- {lit}`1024*1024`. -/
def chunkSize : ℕ :=
  1024 * 1024

/-- The bytes that a read takes. -/
def LogReader.chunk (r : LogReader) (file : LogFile) : List UInt8 :=
  (file.content.drop r.accessPosition).take chunkSize

/-- The text that a read cuts into lines. -/
def LogReader.text (r : LogReader) (file : LogFile) : List Char :=
  r.accessFragment ++ Utf8.decode (r.chunk file)

/-- The position and the fragment after a read. -/
def LogReader.advance (r : LogReader) (file : LogFile) : LogReader :=
  { r with
    accessPosition := r.accessPosition + (r.chunk file).length
    accessFragment := (unfinished '\n' (r.text file)).rtake 16384 }

/-- What a read depends on: whether {lit}`sync_ip_guard` returns and the path is no symbolic link,
the tables of the engine, and how each call of {lit}`Guard.observe` ends. -/
structure LogInput where
  ready : Except String Unit
  store : CoreStore
  observe : ℕ → Except String Unit

/-- {lit}`read_ip_log`, with its calls of {lit}`Guard.observe`. -/
def readIpLog (r : LogReader) (file : Option LogFile) (input : LogInput) :
    LogReader × List (String × String) :=
  match input.ready, file with
  | .error message, _ => ({ r with ipError := message }, [])
  | .ok (), none => (r, [])
  | .ok (), some file =>
      let located := r.locate file
      let next := located.advance file
      let outcome := observeLines lib tables (ipSourceCoverage input.store) input.observe
        (complete '\n' (located.text file)) 0
      match outcome.error with
      | some message => ({ next with ipError := Access.takeText 500 message }, outcome.calls)
      | none =>
          ({ next with ipError := "", opaqueIgnored := next.opaqueIgnored + outcome.ignored },
            outcome.calls)

/-! ## The calls of a read -/

section Reads

variable {lib tables} {coverage : SourceCoverage} {observe : ℕ → Except String Unit}

theorem filterMap_wanted_cons (line : List Char) (lines : List (List Char)) :
    (line :: lines).filterMap (wanted lib tables coverage) =
      (wanted lib tables coverage line).toList ++
        lines.filterMap (wanted lib tables coverage) := by
  cases h : wanted lib tables coverage line with
  | none => simp [h]
  | some call => simp [h]

/-- The calls of a read are those of its lines, unless one of them raises before the last. -/
theorem observeLines_calls {lines : List (List Char)} {n : ℕ}
    (h : ∀ k message, n ≤ k → observe k = .error message →
      n + (lines.filterMap (wanted lib tables coverage)).length ≤ k + 1) :
    (observeLines lib tables coverage observe lines n).calls =
      lines.filterMap (wanted lib tables coverage) := by
  induction lines generalizing n with
  | nil => rfl
  | cons line lines ih =>
      rw [filterMap_wanted_cons] at h ⊢
      unfold observeLines
      cases hparse : parseAccessLine lib tables line with
      | none =>
          have hwanted : wanted lib tables coverage line = none := by simp [wanted, hparse]
          rw [hwanted] at h ⊢
          exact ih h
      | some obs =>
          by_cases hignored : coverage.ignores obs.inboundTag
          · have hwanted : wanted lib tables coverage line = none := by
              simp [wanted, hparse, hignored]
            rw [hwanted] at h ⊢
            simp only [hignored, if_true]
            exact ih h
          · have hwanted : wanted lib tables coverage line = some (obs.email, obs.ip) := by
              simp [wanted, hparse, hignored]
            rw [hwanted] at h ⊢
            simp only [Option.toList_some, List.singleton_append, List.length_cons] at h ⊢
            simp only [hignored, Bool.false_eq_true, if_false]
            cases hcall : observe n with
            | error message =>
                have hlast := h n message le_rfl hcall
                have hnone : (lines.filterMap (wanted lib tables coverage)).length = 0 := by
                  omega
                rw [List.length_eq_zero_iff.mp hnone]
            | ok _ =>
                have hrest := ih (n := n + 1) fun k message hk hraise => by
                  have hbound := h k message (by omega) hraise
                  omega
                rw [← hrest]

/-- What a read leaves: the position and the fragment have moved, whatever the calls do. -/
theorem readIpLog_some (lib : IpLibrary α) (tables : CharTables) (r : LogReader)
    (file : LogFile) {input : LogInput} (h : input.ready = .ok ()) :
    let result := readIpLog lib tables r (some file) input
    result.1.accessInode = (r.locate file).accessInode ∧
      result.1.accessPosition = ((r.locate file).advance file).accessPosition ∧
      result.1.accessFragment = ((r.locate file).advance file).accessFragment ∧
      result.2 = (observeLines lib tables (ipSourceCoverage input.store) input.observe
        (complete '\n' ((r.locate file).text file)) 0).calls := by
  simp only [readIpLog, h]
  split
  · simp only [LogReader.advance, and_self]
  · simp only [LogReader.advance, and_self]

/-- A read has moved nothing and observed nothing. -/
structure IdleRead (r : LogReader) (result : LogReader × List (String × String)) : Prop where
  inode : result.1.accessInode = r.accessInode
  position : result.1.accessPosition = r.accessPosition
  fragment : result.1.accessFragment = r.accessFragment
  calls : result.2 = []

/-- A read that does not come to the file moves nothing. -/
theorem readIpLog_none (r : LogReader) (file : Option LogFile) {input : LogInput}
    (h : file = none ∨ input.ready ≠ .ok ()) :
    IdleRead r (readIpLog lib tables r file input) := by
  unfold readIpLog
  split
  · exact ⟨rfl, rfl, rfl, rfl⟩
  · exact ⟨rfl, rfl, rfl, rfl⟩
  · rename_i hready
    rcases h with hfile | hnot
    · cases hfile
    · exact absurd hready hnot

end Reads

end Core
end DarkXray
