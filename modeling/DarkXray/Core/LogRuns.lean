import DarkXray.Core.AccessLog
import DarkXray.Library.Runs
import DarkXray.Policy.BrokerRuns

/-!
# Runs of the access log

The file grows by any portions, is truncated or replaced once its last bytes are read, and is
read at any time in between.  What is kept beside the fields of the engine: which lines the reads
have reached, and with which tables.

A read moves its position and cuts its fragment before it observes a line, and it decodes its
bytes alone.  So the condition on a read is that no call raises before the last one, that no
character goes on over its first byte, and that what is left of a line that is too long does not
become a line of its own.

Main results:

- Theorem {lit}`access_log_observed_once`: the calls are those of the lines that the reads have
  reached.
- Theorem {lit}`raising_call_skips_line`: after a call that raises, a line is never observed.
-/

namespace DarkXray
namespace Core

open Library
open Library.Utf8 (newline decode cuts)
open Policy (IpLibrary publicIps)

/-! ## The system -/

/-- The log and the engine.  {lit}`old` are the bytes that the file had when the engine started;
{lit}`seen` says that a read has noticed the present file; {lit}`closed` are the earlier files
with what they had at the start; {lit}`reached` are the lines that the reads have reached, with
the tables at that time. -/
structure LogSystem where
  file : LogFile
  old : List UInt8
  seen : Bool
  reader : LogReader
  calls : List (String × String)
  closed : List (List UInt8 × List UInt8)
  reached : List (List UInt8 × CoreStore)

/-- The engine starts, with a file or without one. -/
def LogSystem.start (file : Option LogFile) : LogSystem where
  file := file.getD ⟨(0, 0), []⟩
  old := file.elim [] LogFile.content
  seen := file.isSome
  reader := LogReader.init file
  calls := []
  closed := []
  reached := []

/-- What happens to the log. -/
inductive LogEvent where
  | append (bytes : List UInt8)
  /-- The file is truncated to nothing, or replaced by an empty one. -/
  | renew (identity : ℕ × ℕ)
  /-- The engine reads the log, which may be absent for a while. -/
  | read (present : Bool) (input : LogInput)

/-- How many bytes of the present file have been read. -/
def LogSystem.position (s : LogSystem) : ℕ :=
  if s.seen then s.reader.accessPosition else 0

/-- A read notices the present file, if none has before: it has another number, or is shorter
than the position. -/
def LogSystem.noticed (s : LogSystem) : Bool :=
  s.seen || decide (s.reader.accessPosition = 0 ∨ s.reader.accessInode ≠ some s.file.identity ∨
    s.file.content.length < s.reader.accessPosition)

/-- The read comes to the file. -/
def LogInput.opens (present : Bool) (input : LogInput) : Bool :=
  present && input.ready.toBool

variable {α : Type} (lib : IpLibrary α) (tables : CharTables)

/-- The state after a read. -/
def LogSystem.afterRead (s : LogSystem) (present : Bool) (input : LogInput) : LogSystem :=
  let result := readIpLog lib tables s.reader (if present then some s.file else none) input
  let t := { s with
    seen := s.seen || (input.opens present && s.noticed)
    reader := result.1
    calls := s.calls ++ result.2 }
  let lines := added newline (s.file.content.take s.position) (s.file.content.take t.position)
  { t with reached := s.reached ++ lines.map fun line => (line, input.store) }

/-- The state after an event. -/
def LogSystem.after (s : LogSystem) : LogEvent → LogSystem
  | .append bytes => { s with file := { s.file with content := s.file.content ++ bytes } }
  | .renew identity =>
      { s with
        file := ⟨identity, []⟩
        old := []
        seen := false
        closed := s.closed ++ [(s.old, s.file.content)] }
  | .read present input => s.afterRead lib tables present input

/-- A file is truncated or replaced only when it has been read to its end, and the next one is
noticed before it has outgrown the old position. -/
def Orderly (s : LogSystem) : LogEvent → Prop
  | .append _ => True
  | .renew _ => s.position = s.file.content.length
  | .read present input => input.opens present = true →
      s.noticed = true ∨ s.file.content.length ≤ s.reader.accessPosition

/-- One event. -/
def LogStep (s : LogSystem) (e : LogEvent) (t : LogSystem) : Prop :=
  Orderly s e ∧ t = s.after lib tables e

/-! ## What is expected -/

/-- The calls for lines that were reached. -/
def callsOf (reached : List (List UInt8 × CoreStore)) : List (String × String) :=
  reached.filterMap fun x => wanted lib tables (ipSourceCoverage x.2) (decode x.1)

/-- Every line that the reads have reached, of every file, is observed once, in order, unless it
is one of a tunnel; no line that is too long is observed. -/
structure LogSystem.ObservedOnce (s : LogSystem) : Prop where
  calls : s.calls = callsOf lib tables s.reached
  reached : s.reached.map Prod.fst =
    s.closed.flatMap (fun f => added newline f.1 f.2) ++
      added newline s.old (s.file.content.take s.position)
  short : ∀ x ∈ s.reached, 16384 < (decode x.1).length →
    wanted lib tables (ipSourceCoverage x.2) (decode x.1) = none

/-! ## The condition -/

/-- The bytes of the line that the reads have begun. -/
def LogSystem.begun (s : LogSystem) : List UInt8 :=
  unfinished newline (s.file.content.take s.position)

/-- The bytes that the next read takes. -/
def LogSystem.chunk (s : LogSystem) : List UInt8 :=
  (s.file.content.drop s.position).take chunkSize

/-- The lines that the next read completes. -/
def LogSystem.lines (s : LogSystem) : List (List Char) :=
  (complete newline (s.begun ++ s.chunk)).map decode

/-- A read starts between two characters; what it has kept of a line that is too long and ends at
its first byte is no observation; and no call raises before the last one. -/
structure ReadsWhole (s : LogSystem) (input : LogInput) : Prop where
  border : cuts s.begun s.chunk = false
  long : s.chunk.head? = some newline → 16384 < (decode s.begun).length →
    wanted lib tables (ipSourceCoverage input.store) ((decode s.begun).rtake 16384) = none
  calls : ∀ k message, input.observe k = .error message →
    (s.lines.filterMap (wanted lib tables (ipSourceCoverage input.store))).length ≤ k + 1

/-- The condition on an event. -/
def Intact (s : LogSystem) : LogEvent → Prop
  | .read present input =>
      input.opens present = true → s.noticed = true → ReadsWhole lib tables s input
  | _ => True

/-! ## One read -/

section Fragments

variable {lib tables} {bytes data : List UInt8} {w : List Char → Option (String × String)}

theorem rtake_newline {text : List Char} (h : '\n' ∉ text) (n : ℕ) : '\n' ∉ text.rtake n :=
  fun hmem => h (List.mem_of_mem_drop hmem)

/-- The lines of a read from its fragment are those from the whole line, as far as they are
observed. -/
theorem filterMap_fragment (hw : ∀ line, 16384 < line.length → w line = none)
    (hbytes : newline ∉ bytes) (hborder : cuts bytes data = false)
    (hlong : data.head? = some newline → 16384 < (decode bytes).length →
      w ((decode bytes).rtake 16384) = none) :
    (complete '\n' ((decode bytes).rtake 16384 ++ decode data)).filterMap w =
      ((complete newline (bytes ++ data)).map decode).filterMap w := by
  have hfront := Utf8.not_mem_decode hbytes
  rw [← Utf8.complete_decode, Utf8.decode_append hborder, complete_prepend hfront,
    complete_prepend (rtake_newline hfront 16384)]
  by_cases hshort : (decode bytes).length ≤ 16384
  · rw [rtake_of_length_le hshort]
  · cases hparts : complete '\n' (decode data) with
    | nil => simp
    | cons part parts =>
        have hwhole : w (decode bytes ++ part) = none := by
          apply hw
          rw [List.length_append]
          omega
        have hrest : w ((decode bytes).rtake 16384 ++ part) = none := by
          by_cases hpart : part = []
          · subst hpart
            rw [Utf8.complete_decode] at hparts
            obtain ⟨first, others, hcomplete, hdecode, -⟩ := List.map_eq_cons_iff.mp hparts
            rw [Utf8.decode_eq_nil hdecode] at hcomplete
            rw [List.append_nil]
            exact hlong (head?_of_complete hcomplete) (by omega)
          · apply hw
            have hpositive := List.length_pos_iff.mpr hpart
            rw [List.length_append, length_rtake (by omega)]
            omega
        simp only [List.modifyHead_cons, List.filterMap_cons, hwhole, hrest]

/-- The next fragment is the end of the next line that has begun. -/
theorem unfinished_fragment (hbytes : newline ∉ bytes) (hborder : cuts bytes data = false) :
    (unfinished '\n' ((decode bytes).rtake 16384 ++ decode data)).rtake 16384 =
      (decode (unfinished newline (bytes ++ data))).rtake 16384 := by
  have hfront := Utf8.not_mem_decode hbytes
  rw [← Utf8.unfinished_decode, Utf8.decode_append hborder, unfinished_prepend hfront,
    unfinished_prepend (rtake_newline hfront 16384)]
  split_ifs
  · exact rtake_append 16384 _ _
  · rfl

end Fragments

/-! ## The invariant -/

/-- What holds in every state: the fragment is the end of the line that has begun, and the calls
are those of the lines that were reached. -/
structure LogInv (s : LogSystem) : Prop where
  blank : s.reader.accessInode = none → s.reader.accessPosition = 0
  fresh : s.reader.accessPosition = 0 → s.reader.accessFragment = []
  line : '\n' ∉ s.reader.accessFragment
  bounded : s.reader.accessFragment.length ≤ 16384
  inode : s.seen = true → s.reader.accessInode = some s.file.identity
  within : s.position ≤ s.file.content.length
  fragment : s.seen = true → s.reader.accessFragment = (decode s.begun).rtake 16384
  old : s.old <+: s.file.content.take s.position
  calls : s.calls = callsOf lib tables s.reached
  reached : s.reached.map Prod.fst =
    s.closed.flatMap (fun f => added newline f.1 f.2) ++
      added newline s.old (s.file.content.take s.position)

section Invariant

variable {lib tables} {s : LogSystem} {present : Bool} {input : LogInput}

/-- A log is opened if it is there and ready. -/
theorem opens_iff : input.opens present = true ↔ present = true ∧ input.ready = .ok () := by
  unfold LogInput.opens
  cases input.ready <;> simp [Except.toBool]

/-- The tail of a text is no longer than asked for. -/
theorem length_rtake_le (n : ℕ) (text : List Char) : (text.rtake n).length ≤ n := by
  rw [List.rtake, List.length_drop]
  omega

/-- A new engine. -/
theorem LogInv.start {file : Option LogFile}
    (h : ∀ f, file = some f → unfinished newline f.content = []) :
    LogInv lib tables (LogSystem.start file) := by
  cases file with
  | none =>
      exact ⟨fun _ => rfl, fun _ => rfl, List.not_mem_nil, Nat.zero_le _,
        fun hseen => (Bool.false_ne_true hseen).elim, Nat.zero_le _,
        fun hseen => (Bool.false_ne_true hseen).elim, List.prefix_refl _, rfl, rfl⟩
  | some f =>
      have hall : f.content.take f.content.length = f.content := List.take_length
      have hbegun : (LogSystem.start (some f)).begun = [] := by
        show unfinished newline (f.content.take f.content.length) = []
        rw [hall]
        exact h f rfl
      refine ⟨fun hnone => (Option.some_ne_none _ hnone).elim, fun _ => rfl, List.not_mem_nil,
        Nat.zero_le _, fun _ => rfl, le_rfl, fun _ => ?_, ?_, rfl, ?_⟩
      · rw [hbegun]
        rfl
      · exact ⟨[], by rw [List.append_nil]; exact hall.symm⟩
      · show [] = [] ++ added newline f.content (f.content.take f.content.length)
        rw [hall, added_self, List.append_nil]

/-- A read that notices the file finds it at its position, with the end of the line that has
begun. -/
theorem LogInv.locate (hinv : LogInv lib tables s) (hnoticed : s.noticed = true) :
    (s.reader.locate s.file).accessInode = some s.file.identity ∧
      (s.reader.locate s.file).accessPosition = s.position ∧
      (s.reader.locate s.file).accessFragment = (decode s.begun).rtake 16384 := by
  cases hseen : s.seen with
  | true =>
      have hinode := hinv.inode hseen
      have hposition : s.position = s.reader.accessPosition := by
        unfold LogSystem.position
        rw [hseen, if_pos rfl]
      have hwithin := hinv.within
      rw [hposition] at hwithin
      have hsame : s.reader.locate s.file = s.reader := by
        unfold LogReader.locate
        rw [hinode, if_neg (Option.some_ne_none _), if_neg]
        rintro (hother | hshort)
        · exact hother hinode
        · omega
      rw [hsame]
      exact ⟨hinode, hposition.symm, hinv.fragment hseen⟩
  | false =>
      have hposition : s.position = 0 := by
        unfold LogSystem.position
        rw [hseen, if_neg Bool.false_ne_true]
      have hbegun : s.begun = [] := by
        unfold LogSystem.begun
        rw [hposition, List.take_zero, unfinished_nil]
      rw [hposition, hbegun]
      simp only [LogSystem.noticed, hseen, Bool.false_or, decide_eq_true_eq] at hnoticed
      by_cases hnone : s.reader.accessInode = none
      · have hfragment := hinv.fresh (hinv.blank hnone)
        simp [LogReader.locate, hnone, hfragment, decode, Utf8.decodeFrom, List.rtake]
      · by_cases hreset : s.reader.accessInode ≠ some s.file.identity ∨
            s.file.content.length < s.reader.accessPosition
        · simp [LogReader.locate, hnone, hreset, decode, Utf8.decodeFrom, List.rtake]
        · have hzero : s.reader.accessPosition = 0 := hnoticed.resolve_right hreset
          have hfragment := hinv.fresh hzero
          rw [not_or, not_not] at hreset
          simp [LogReader.locate, hreset.1, hzero, hfragment, decode, Utf8.decodeFrom, List.rtake]

/-- A read that moves nothing. -/
theorem LogInv.quiet (hinv : LogInv lib tables s)
    (hidle : IdleRead s.reader
      (readIpLog lib tables s.reader (if present then some s.file else none) input))
    (hseen : (input.opens present && s.noticed) = true → s.seen = true) :
    LogInv lib tables (s.afterRead lib tables present input) := by
  obtain ⟨hinode, haccess, hfragment, hcalls⟩ := hidle
  set t := s.afterRead lib tables present input with ht
  have hsame : t.seen = s.seen := by
    show (s.seen || (input.opens present && s.noticed)) = s.seen
    cases h : input.opens present && s.noticed with
    | false => rw [Bool.or_false]
    | true => rw [hseen h, Bool.or_true]
  have hposition : t.position = s.position := by
    unfold LogSystem.position
    rw [hsame]
    exact congrArg (if s.seen = true then · else 0) haccess
  have hbegun : t.begun = s.begun := by
    unfold LogSystem.begun
    rw [hposition]
    rfl
  have hreached : t.reached = s.reached := by
    show s.reached ++ (added newline (s.file.content.take s.position)
      (s.file.content.take t.position)).map (fun line => (line, input.store)) = s.reached
    rw [hposition, added_self, List.map_nil, List.append_nil]
  have hall : t.calls = s.calls := by
    show s.calls ++ _ = s.calls
    rw [hcalls, List.append_nil]
  constructor
  · exact fun hnone => haccess.trans (hinv.blank (hinode.symm.trans hnone))
  · exact fun hzero => hfragment.trans (hinv.fresh (haccess.symm.trans hzero))
  · exact fun hmem => hinv.line (hfragment ▸ hmem)
  · exact hfragment ▸ hinv.bounded
  · exact fun h => hinode.trans (hinv.inode (hsame ▸ h))
  · rw [hposition]
    exact hinv.within
  · rw [hbegun]
    exact fun h => hfragment.trans (hinv.fragment (hsame ▸ h))
  · rw [hposition]
    exact hinv.old
  · rw [hall, hreached]
    exact hinv.calls
  · rw [hreached, hposition]
    exact hinv.reached

/-- A read that does not come to the file. -/
theorem LogInv.closed (hinv : LogInv lib tables s) (hopens : input.opens present ≠ true) :
    LogInv lib tables (s.afterRead lib tables present input) := by
  apply hinv.quiet
  · apply readIpLog_none
    cases present with
    | false => exact Or.inl rfl
    | true => exact Or.inr fun hready => hopens (opens_iff.mpr ⟨rfl, hready⟩)
  · intro h
    rw [Bool.and_eq_true] at h
    exact absurd h.1 hopens

/-- A read of a truncated file that has grown to its old size again does nothing. -/
theorem LogInv.unnoticed (hinv : LogInv lib tables s) (hopens : input.opens present = true)
    (hnoticed : s.noticed = false) (hlength : s.file.content.length ≤ s.reader.accessPosition) :
    LogInv lib tables (s.afterRead lib tables present input) := by
  obtain ⟨rfl, hready⟩ := opens_iff.mp hopens
  simp only [LogSystem.noticed, Bool.or_eq_false_iff, decide_eq_false_iff_not, not_or,
    not_not] at hnoticed
  obtain ⟨-, hpositive, hinode, hlong⟩ := hnoticed
  have hlocate : s.reader.locate s.file = s.reader := by
    unfold LogReader.locate
    rw [hinode, if_neg (Option.some_ne_none _), if_neg]
    rintro (hother | hshort)
    · exact hother hinode
    · exact hlong hshort
  have hchunk : s.reader.chunk s.file = [] := by
    rw [LogReader.chunk, List.drop_eq_nil_of_le hlength, List.take_nil]
  have htext : s.reader.text s.file = s.reader.accessFragment := by
    rw [LogReader.text, hchunk]
    exact List.append_nil _
  apply hinv.quiet
  · obtain ⟨hinode', hposition, hfragment, hcalls⟩ :=
      readIpLog_some lib tables s.reader s.file hready
    rw [hlocate] at hinode' hposition hfragment hcalls
    rw [htext, complete_of_not_mem hinv.line] at hcalls
    simp only [LogReader.advance, hchunk, List.length_nil, Nat.add_zero] at hposition
    simp only [LogReader.advance, htext, unfinished_of_not_mem hinv.line,
      rtake_of_length_le hinv.bounded] at hfragment
    exact ⟨hinode', hposition, hfragment, hcalls⟩
  · intro h
    simp [LogSystem.noticed, hpositive, hinode, hlong] at h
    exact h.2

/-- The calls for more lines come after those for the lines before. -/
theorem callsOf_read (reached : List (List UInt8 × CoreStore)) (parts : List (List UInt8))
    (store : CoreStore) :
    callsOf lib tables (reached ++ parts.map fun line => (line, store)) =
      callsOf lib tables reached ++
        (parts.map decode).filterMap (wanted lib tables (ipSourceCoverage store)) := by
  unfold callsOf
  rw [List.filterMap_append, List.filterMap_map, List.filterMap_map]
  rfl

theorem map_fst_read (reached : List (List UInt8 × CoreStore)) (parts : List (List UInt8))
    (store : CoreStore) :
    (reached ++ parts.map fun line => (line, store)).map Prod.fst =
      reached.map Prod.fst ++ parts := by
  rw [List.map_append, List.map_map]
  exact congrArg (reached.map Prod.fst ++ ·) (List.map_id' parts)

/-- What was read and the next chunk are a longer part of the file. -/
theorem take_chunk (s : LogSystem) :
    s.file.content.take (s.position + s.chunk.length) =
      s.file.content.take s.position ++ s.chunk := by
  have hprefix : s.chunk <+: s.file.content.drop s.position := List.take_prefix _ _
  rw [List.take_add, ← List.prefix_iff_eq_take.mp hprefix]

/-- A read observes the lines that it completes. -/
theorem LogInv.observed (hinv : LogInv lib tables s) (hopens : input.opens present = true)
    (hnoticed : s.noticed = true) (hwhole : ReadsWhole lib tables s input) :
    LogInv lib tables (s.afterRead lib tables present input) := by
  have hseen : (s.seen || (input.opens present && s.noticed)) = true := by
    rw [hopens, hnoticed, Bool.and_true, Bool.or_true]
  obtain ⟨rfl, hready⟩ := opens_iff.mp hopens
  obtain ⟨hinode, hat, hkept⟩ := hinv.locate hnoticed
  obtain ⟨hinode', haccess, hfragment, hcalls⟩ :=
    readIpLog_some lib tables s.reader s.file hready
  have hchunk : (s.reader.locate s.file).chunk s.file = s.chunk := by
    rw [LogReader.chunk, hat]
    rfl
  have htext : (s.reader.locate s.file).text s.file =
      (decode s.begun).rtake 16384 ++ decode s.chunk := by
    rw [LogReader.text, hkept, hchunk]
  have hbegun : newline ∉ s.begun := not_mem_unfinished _ _
  have hlines : (complete '\n' ((s.reader.locate s.file).text s.file)).filterMap
      (wanted lib tables (ipSourceCoverage input.store)) =
      s.lines.filterMap (wanted lib tables (ipSourceCoverage input.store)) := by
    rw [htext]
    exact filterMap_fragment (fun line => wanted_of_long lib tables _) hbegun hwhole.border
      hwhole.long
  rw [observeLines_calls fun k message _ hraise => by
    rw [hlines, Nat.zero_add]
    exact hwhole.calls k message hraise, hlines] at hcalls
  simp only [LogReader.advance, hchunk, hat, htext,
    unfinished_fragment hbegun hwhole.border] at haccess hfragment
  set t := s.afterRead lib tables true input with ht
  have hposition : t.position = s.position + s.chunk.length := by
    unfold LogSystem.position
    rw [show t.seen = true from hseen, if_pos rfl]
    exact haccess
  have htake : t.file.content.take t.position = s.file.content.take s.position ++ s.chunk := by
    rw [hposition]
    exact take_chunk s
  have hnext : t.begun = unfinished newline (s.begun ++ s.chunk) := by
    unfold LogSystem.begun
    rw [htake, unfinished_append]
  have hadded : added newline (s.file.content.take s.position) (t.file.content.take t.position) =
      complete newline (s.begun ++ s.chunk) := by
    rw [htake, added_append]
    rfl
  have hreached : t.reached = s.reached ++
      (complete newline (s.begun ++ s.chunk)).map fun line => (line, input.store) := by
    rw [← hadded]
    rfl
  have hmore : s.file.content.take s.position <+: t.file.content.take t.position := by
    rw [htake]
    exact List.prefix_append _ _
  constructor
  · intro hnone
    rw [show t.reader.accessInode = some s.file.identity from hinode'.trans hinode] at hnone
    cases hnone
  · intro hzero
    have hsum : s.position + s.chunk.length = 0 := haccess.symm.trans hzero
    have hnil : s.chunk = [] := List.length_eq_zero_iff.mp (by omega)
    have hnone : s.begun = [] := by
      unfold LogSystem.begun
      rw [show s.position = 0 by omega, List.take_zero, unfinished_nil]
    rw [hnil, hnone, List.append_nil, unfinished_nil] at hfragment
    exact hfragment
  · rw [show t.reader.accessFragment = _ from hfragment]
    exact rtake_newline (Utf8.not_mem_decode (not_mem_unfinished _ _)) _
  · rw [show t.reader.accessFragment = _ from hfragment]
    exact length_rtake_le _ _
  · exact fun _ => hinode'.trans hinode
  · have hwithin := hinv.within
    have hlength := congrArg List.length htake
    rw [List.length_append, List.length_take, List.length_take, min_eq_left hwithin,
      ← hposition] at hlength
    exact min_eq_left_iff.mp hlength
  · rw [hnext]
    exact fun _ => hfragment
  · exact hinv.old.trans hmore
  · rw [hreached, callsOf_read, ← hinv.calls]
    exact congrArg (s.calls ++ ·) hcalls
  · show _ = s.closed.flatMap (fun f => added newline f.1 f.2) ++
      added newline s.old (t.file.content.take t.position)
    rw [hreached, map_fst_read, hinv.reached, added_trans hinv.old hmore, hadded,
      List.append_assoc]

/-- More bytes. -/
theorem LogInv.append (hinv : LogInv lib tables s) (bytes : List UInt8) :
    LogInv lib tables (s.after lib tables (.append bytes)) := by
  have hwithin := hinv.within
  have htake : (s.file.content ++ bytes).take s.position = s.file.content.take s.position :=
    List.take_append_of_le_length hwithin
  have hbegun : (s.after lib tables (.append bytes)).begun = s.begun := by
    show unfinished newline ((s.file.content ++ bytes).take s.position) = s.begun
    rw [htake]
    rfl
  refine { hinv with within := ?_, fragment := ?_, old := ?_, reached := ?_ }
  · show s.position ≤ (s.file.content ++ bytes).length
    rw [List.length_append]
    omega
  · rw [hbegun]
    exact hinv.fragment
  · show s.old <+: (s.file.content ++ bytes).take s.position
    rw [htake]
    exact hinv.old
  · show s.reached.map Prod.fst = s.closed.flatMap (fun f => added newline f.1 f.2) ++
      added newline s.old ((s.file.content ++ bytes).take s.position)
    rw [htake]
    exact hinv.reached

/-- A file that has been read to its end is closed. -/
theorem LogInv.renew (hinv : LogInv lib tables s) (identity : ℕ × ℕ)
    (hend : s.position = s.file.content.length) :
    LogInv lib tables (s.after lib tables (.renew identity)) := by
  have hreached := hinv.reached
  rw [hend, List.take_length] at hreached
  refine ⟨hinv.blank, hinv.fresh, hinv.line, hinv.bounded,
    fun hseen => (Bool.false_ne_true hseen).elim, Nat.zero_le _,
    fun hseen => (Bool.false_ne_true hseen).elim, List.prefix_refl _, hinv.calls, ?_⟩
  show s.reached.map Prod.fst = (s.closed ++ [(s.old, s.file.content)]).flatMap
    (fun f => added newline f.1 f.2) ++ added newline [] []
  rw [hreached, List.flatMap_append, List.flatMap_singleton, added_self, List.append_nil]

/-- Every event keeps the invariant. -/
theorem LogInv.step {t : LogSystem} {e : LogEvent} (hinv : LogInv lib tables s)
    (hstep : Guarded (LogStep lib tables) (Intact lib tables) s e t) : LogInv lib tables t := by
  obtain ⟨⟨horderly, rfl⟩, hintact⟩ := hstep
  cases e with
  | append bytes => exact hinv.append bytes
  | renew identity => exact hinv.renew identity horderly
  | read present input =>
      by_cases hopens : input.opens present = true
      · cases hnoticed : s.noticed with
        | true => exact hinv.observed hopens hnoticed (hintact hopens hnoticed)
        | false =>
            have hlength := (horderly hopens).resolve_left (by rw [hnoticed]; decide)
            exact hinv.unnoticed hopens hnoticed hlength
      · exact hinv.closed hopens

/-- From an engine that starts between two lines, in every run whose reads meet the condition, the
calls are those of the lines that the reads have reached. -/
theorem access_log_observed_once {file : Option LogFile} {es : List LogEvent}
    (hwhole : ∀ f, file = some f → unfinished newline f.content = [])
    (hrun : Run (Guarded (LogStep lib tables) (Intact lib tables)) (LogSystem.start file) es s) :
    s.ObservedOnce lib tables := by
  have hinv : LogInv lib tables s := hrun.invariant (LogInv.start hwhole) fun _ _ _ => LogInv.step
  exact ⟨hinv.calls, hinv.reached, fun x _ hlong => wanted_of_long lib tables _ hlong⟩

end Invariant

/-! ### Two lines -/

/-- The bytes of an ASCII text. -/
def bytesOf (text : String) : List UInt8 :=
  text.toList.map fun c => UInt8.ofNat c.toNat

/-- The character tables of ASCII. -/
def asciiChars : CharTables where
  isWord := fun c => c.isAlphanum || c = '_'
  decimal := fun c => if c.isDigit then some (c.toNat - 48) else none

/-- Two connections of one client. -/
def twoLines : LogEvent :=
  .append (bytesOf "8.8.8.8:7 accepted email:a\n8.8.4.4:7 accepted email:a\n")

/-- A read whose first call ends in some way. -/
def readWith (result : Except String Unit) : LogEvent :=
  .read true ⟨.ok (), CoreStore.fresh, fun k => if k = 0 then result else .ok ()⟩

/-- The states of the runs below. -/
def afterEvents (es : List LogEvent) : LogSystem :=
  es.foldl (fun s e => s.after publicIps asciiChars e) (LogSystem.start none)

theorem step_twoLines :
    LogStep publicIps asciiChars (LogSystem.start none) twoLines (afterEvents [twoLines]) :=
  ⟨trivial, rfl⟩

theorem step_readWith (result : Except String Unit) :
    LogStep publicIps asciiChars (afterEvents [twoLines]) (readWith result)
      (afterEvents [twoLines, readWith result]) :=
  ⟨fun _ => Or.inl rfl, rfl⟩

/-- The read of both lines meets the condition when no call raises. -/
theorem intact_readWith :
    Intact publicIps asciiChars (afterEvents [twoLines]) (readWith (.ok ())) := by
  intro _ _
  constructor
  · decide +kernel
  · intro h
    exact absurd h (by decide +kernel)
  · intro k message h
    have hnever : (if k = 0 then Except.ok () else Except.ok () : Except String Unit) =
      .error message := h
    rw [ite_self] at hnever
    cases hnever

/-- Both lines are observed when no call raises. -/
theorem access_log_observed_once_two_lines :
    (afterEvents [twoLines, readWith (.ok ())]).ObservedOnce publicIps asciiChars ∧
      (afterEvents [twoLines, readWith (.ok ())]).calls =
        [("a", "8.8.8.8"), ("a", "8.8.4.4")] := by
  have hfirst : Run (Guarded (LogStep publicIps asciiChars) (Intact publicIps asciiChars))
      (LogSystem.start none) [twoLines] (afterEvents [twoLines]) :=
    Run.single ⟨step_twoLines, trivial⟩
  have hrun := hfirst.snoc ⟨step_readWith (.ok ()), intact_readWith⟩
  exact ⟨access_log_observed_once (fun _ h => by cases h) hrun, by decide +kernel⟩

/-- The first call raises: the position has moved already, so no later read observes the second
line. -/
theorem raising_call_skips_line :
    ∃ s : LogSystem, Run (LogStep publicIps asciiChars) (LogSystem.start none)
        [twoLines, readWith (.error "disk I/O error"), readWith (.ok ())] s ∧
      s.calls = [("a", "8.8.8.8")] ∧ ¬ s.ObservedOnce publicIps asciiChars := by
  have hfirst : Run (LogStep publicIps asciiChars) (LogSystem.start none) [twoLines]
      (afterEvents [twoLines]) := Run.single step_twoLines
  have hfail := hfirst.snoc (step_readWith (.error "disk I/O error"))
  have hlast : LogStep publicIps asciiChars
      (afterEvents [twoLines, readWith (.error "disk I/O error")]) (readWith (.ok ()))
      (afterEvents [twoLines, readWith (.error "disk I/O error"), readWith (.ok ())]) :=
    ⟨fun _ => Or.inl rfl, rfl⟩
  refine ⟨_, hfail.snoc hlast, by decide +kernel, ?_⟩
  intro honce
  have hcalls := honce.calls
  revert hcalls
  decide +kernel

end Core
end DarkXray
