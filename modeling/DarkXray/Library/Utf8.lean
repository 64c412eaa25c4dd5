import DarkXray.Library.Lines

/-!
# Decoding UTF-8

A decoder of UTF-8 puts a replacement character where bytes are no character: one for each longest
piece that begins a sequence, and one for every other byte.  It works byte by byte and keeps the
bytes of the sequence that has begun.

Main results:

- Theorem {lit}`decode_append`: two pieces decode alone unless a sequence goes on over their
  border.
- Theorem {lit}`complete_decode`: the lines of the decoded bytes are the decoded lines.
-/

namespace DarkXray
namespace Library
namespace Utf8

/-! ## Sequences -/

/-- How many bytes a sequence has that starts with a byte; the other bytes start none. -/
def width (lead : UInt8) : ℕ :=
  if lead.toNat < 0x80 then 1
  else if 0xC2 ≤ lead.toNat ∧ lead.toNat ≤ 0xDF then 2
  else if 0xE0 ≤ lead.toNat ∧ lead.toNat ≤ 0xEF then 3
  else if 0xF0 ≤ lead.toNat ∧ lead.toNat ≤ 0xF4 then 4
  else 0

/-- The least second byte of a sequence. -/
def secondLeast (lead : UInt8) : ℕ :=
  if lead.toNat = 0xE0 then 0xA0 else if lead.toNat = 0xF0 then 0x90 else 0x80

/-- The greatest second byte of a sequence. -/
def secondMost (lead : UInt8) : ℕ :=
  if lead.toNat = 0xED then 0x9F else if lead.toNat = 0xF4 then 0x8F else 0xBF

/-- A byte goes on with the sequence that has begun. -/
def continues : List UInt8 → UInt8 → Bool
  | [], _ => false
  | [lead], b => decide (secondLeast lead ≤ b.toNat) && decide (b.toNat ≤ secondMost lead)
  | _ :: _ :: _, b => decide (0x80 ≤ b.toNat) && decide (b.toNat ≤ 0xBF)

/-- The code point of a sequence. -/
def codePoint : List UInt8 → ℕ
  | [a] => a.toNat
  | [a, b] => (a.toNat - 0xC0) * 0x40 + (b.toNat - 0x80)
  | [a, b, c] => (a.toNat - 0xE0) * 0x1000 + (b.toNat - 0x80) * 0x40 + (c.toNat - 0x80)
  | [a, b, c, d] => (a.toNat - 0xF0) * 0x40000 + (b.toNat - 0x80) * 0x1000 +
      (c.toNat - 0x80) * 0x40 + (d.toNat - 0x80)
  | _ => 0

/-! ## The decoder -/

/-- The replacement character. -/
def replacement : Char :=
  Char.ofNat 0xFFFD

/-- A byte when no sequence has begun: what it decodes to, and the sequence that it begins. -/
def start (b : UInt8) : List Char × List UInt8 :=
  if width b = 1 then ([Char.ofNat b.toNat], [])
  else if width b = 0 then ([replacement], [])
  else ([], [b])

/-- A byte after the sequence that has begun. -/
def feed (pending : List UInt8) (b : UInt8) : List Char × List UInt8 :=
  if continues pending b then
    if (pending ++ [b]).length = width (pending.headD b) then
      ([Char.ofNat (codePoint (pending ++ [b]))], [])
    else ([], pending ++ [b])
  else if pending = [] then start b
  else (replacement :: (start b).1, (start b).2)

/-- The characters of bytes after the sequence that has begun. -/
def decodeFrom (pending : List UInt8) : List UInt8 → List Char
  | [] => if pending = [] then [] else [replacement]
  | b :: bytes => (feed pending b).1 ++ decodeFrom (feed pending b).2 bytes

/-- The sequence that has begun at the end of bytes. -/
def pendingFrom (pending : List UInt8) : List UInt8 → List UInt8
  | [] => pending
  | b :: bytes => pendingFrom (feed pending b).2 bytes

/-- The characters of bytes. -/
def decode (bytes : List UInt8) : List Char :=
  decodeFrom [] bytes

/-- A sequence goes on over the border of two pieces. -/
def cuts (front back : List UInt8) : Bool :=
  back.head?.any (continues (pendingFrom [] front))

/-! ## Pieces -/

section Pieces

variable {front back bytes : List UInt8} {pending : List UInt8} {b : UInt8}

/-- A byte that does not continue what is pending begins anew, after a replacement for what was
pending. -/
theorem feed_of_not_continues (h : continues pending b = false) :
    feed pending b = ((if pending = [] then [] else [replacement]) ++ (start b).1,
      (start b).2) := by
  unfold feed
  rw [h, if_neg Bool.false_ne_true]
  by_cases hpending : pending = []
  · simp [hpending]
  · simp [hpending]

/-- Decoding splits where the second part begins a character. -/
theorem decodeFrom_append (h : back.head?.any (continues (pendingFrom pending front)) = false) :
    decodeFrom pending (front ++ back) = decodeFrom pending front ++ decode back := by
  induction front generalizing pending with
  | nil =>
      cases back with
      | nil => simp [decode, decodeFrom]
      | cons b bytes =>
          have hpending : continues pending b = false := h
          have hstart : continues [] b = false := rfl
          show (feed pending b).1 ++ decodeFrom (feed pending b).2 bytes =
            decodeFrom pending [] ++ ((feed [] b).1 ++ decodeFrom (feed [] b).2 bytes)
          rw [feed_of_not_continues hpending, feed_of_not_continues hstart]
          simp [decodeFrom]
  | cons b front ih =>
      rw [List.cons_append, decodeFrom, decodeFrom, ih h, List.append_assoc]

/-- Two pieces decode alone unless a sequence goes on over their border. -/
theorem decode_append (h : cuts front back = false) :
    decode (front ++ back) = decode front ++ decode back :=
  decodeFrom_append h

/-- A first byte that yields no character stays pending. -/
theorem start_ne_nil (b : UInt8) (h : (start b).1 = []) : (start b).2 ≠ [] := by
  unfold start at h ⊢
  split_ifs at h ⊢ with hone hzero
  simp

/-- A byte that yields no character stays pending. -/
theorem feed_ne_nil (pending : List UInt8) (b : UInt8) (h : (feed pending b).1 = []) :
    (feed pending b).2 ≠ [] := by
  unfold feed at h ⊢
  split_ifs at h ⊢ with hcontinues hwidth hpending
  · simp
  · exact start_ne_nil b h

/-- Only nothing decodes to nothing. -/
theorem decodeFrom_eq_nil (h : decodeFrom pending bytes = []) : pending = [] ∧ bytes = [] := by
  induction bytes generalizing pending with
  | nil =>
      unfold decodeFrom at h
      split_ifs at h with hpending
      exact ⟨hpending, rfl⟩
  | cons b bytes ih =>
      rw [decodeFrom, List.append_eq_nil_iff] at h
      exact absurd (ih h.2).1 (feed_ne_nil pending b h.1)

/-- Only no bytes decode to no character. -/
theorem decode_eq_nil (h : decode bytes = []) : bytes = [] :=
  (decodeFrom_eq_nil h).2

end Pieces

/-! ## Lines -/

/-- The byte of a newline. -/
def newline : UInt8 :=
  10

/-- What has begun is the beginning of a sequence. -/
def Begun : List UInt8 → Prop
  | [] => True
  | [a] => 2 ≤ width a
  | [a, b] => 3 ≤ width a ∧ secondLeast a ≤ b.toNat ∧ b.toNat ≤ secondMost a
  | [a, b, c] => 4 ≤ width a ∧ secondLeast a ≤ b.toNat ∧ b.toNat ≤ secondMost a ∧
      0x80 ≤ c.toNat ∧ c.toNat ≤ 0xBF
  | _ => False

section Newlines

variable {pending bytes : List UInt8} {b : UInt8}

/-- A line feed continues no character. -/
theorem continues_newline (pending : List UInt8) : continues pending newline = false := by
  rcases pending with _ | ⟨a, _ | ⟨a', rest⟩⟩
  · rfl
  · have hleast : 0x80 ≤ secondLeast a := by
      unfold secondLeast
      split_ifs <;> decide
    have hten : newline.toNat = 10 := rfl
    simp only [continues, hten, Bool.and_eq_false_iff, decide_eq_false_iff_not]
    omega
  · rfl

/-- A line feed cuts no character. -/
theorem cuts_newline (front bytes : List UInt8) : cuts front (newline :: bytes) = false :=
  continues_newline _

/-- A line feed at the front decodes to itself. -/
theorem decode_newline (bytes : List UInt8) :
    decode (newline :: bytes) = '\n' :: decode bytes :=
  rfl

/-- Only the code point of a line feed is a line feed. -/
theorem ofNat_ne_newline {n : ℕ} (h : n ≠ 10) : Char.ofNat n ≠ '\n' := by
  intro heq
  have hnat := congrArg Char.toNat heq
  by_cases hvalid : n.isValidChar
  · rw [Char.ofNat, dif_pos hvalid] at hnat
    exact h hnat
  · rw [Char.ofNat, dif_neg hvalid] at hnat
    cases hnat

/-- The replacement character is no line feed. -/
theorem replacement_ne_newline : replacement ≠ '\n' := by
  decide

/-- A byte that starts a sequence is no newline, unless it is one. -/
theorem start_newline (h : b ≠ newline) : '\n' ∉ (start b).1 := by
  have hten : b.toNat ≠ 10 := fun heq => h (UInt8.toNat_inj.mp heq)
  unfold start
  split_ifs
  · simpa using (ofNat_ne_newline hten).symm
  · simpa using replacement_ne_newline.symm
  · simp

/-- What a first byte leaves pending has begun a character. -/
theorem begun_start (b : UInt8) : Begun (start b).2 := by
  unfold start
  split_ifs with hone hzero
  · trivial
  · trivial
  · show 2 ≤ width b
    omega

/-- A character has at most four bytes. -/
theorem width_le (lead : UInt8) : width lead ≤ 4 := by
  unfold width
  split_ifs <;> omega

/-- The least code point of a sequence grows with its width. -/
theorem least_of_width (lead : UInt8) (h : 2 ≤ width lead) :
    (width lead = 2 ∧ 0xC2 ≤ lead.toNat) ∨
      (width lead = 3 ∧ (0xE0 < lead.toNat ∨ secondLeast lead = 0xA0)) ∨
      (width lead = 4 ∧ (0xF0 < lead.toNat ∨ secondLeast lead = 0x90)) := by
  unfold width at *
  unfold secondLeast
  split_ifs at * <;> omega

/-- The code point of a longer sequence is no newline. -/
theorem codePoint_ne_newline (hbegun : Begun pending) (hcontinues : continues pending b = true)
    (hwidth : (pending ++ [b]).length = width (pending.headD b)) :
    codePoint (pending ++ [b]) ≠ 10 := by
  rcases pending with _ | ⟨a, _ | ⟨a', _ | ⟨a'', _ | ⟨_, _⟩⟩⟩⟩
  · cases hcontinues
  · have hlength : 2 = width a := hwidth
    have hleast := least_of_width a (by omega)
    show (a.toNat - 0xC0) * 0x40 + (b.toNat - 0x80) ≠ 10
    omega
  · have hlength : 3 = width a := hwidth
    have hleast := least_of_width a (by omega)
    have hsecond := hbegun.2.1
    show (a.toNat - 0xE0) * 0x1000 + (a'.toNat - 0x80) * 0x40 + (b.toNat - 0x80) ≠ 10
    omega
  · have hlength : 4 = width a := hwidth
    have hleast := least_of_width a (by omega)
    have hsecond := hbegun.2.1
    show (a.toNat - 0xF0) * 0x40000 + (a'.toNat - 0x80) * 0x1000 +
      (a''.toNat - 0x80) * 0x40 + (b.toNat - 0x80) ≠ 10
    omega
  · exact hbegun.elim

/-- A byte that continues a character that is not complete leaves it begun. -/
theorem begun_append (hbegun : Begun pending) (hcontinues : continues pending b = true)
    (hwidth : (pending ++ [b]).length ≠ width (pending.headD b)) : Begun (pending ++ [b]) := by
  rcases pending with _ | ⟨a, _ | ⟨a', _ | ⟨a'', _ | ⟨_, _⟩⟩⟩⟩
  · cases hcontinues
  · have htwo : 2 ≤ width a := hbegun
    have hlength : 2 ≠ width a := hwidth
    simp only [continues, Bool.and_eq_true, decide_eq_true_eq] at hcontinues
    exact ⟨by omega, hcontinues⟩
  · obtain ⟨hthree, hleast, hmost⟩ := hbegun
    have hlength : 3 ≠ width a := hwidth
    simp only [continues, Bool.and_eq_true, decide_eq_true_eq] at hcontinues
    exact ⟨by omega, hleast, hmost, hcontinues⟩
  · have hfour : 4 ≤ width a := hbegun.1
    have hlength : 4 ≠ width a := hwidth
    have hle := width_le a
    omega
  · exact hbegun.elim

/-- What stays pending has begun a character. -/
theorem begun_feed (hbegun : Begun pending) (b : UInt8) : Begun (feed pending b).2 := by
  unfold feed
  split_ifs with hcontinues hwidth hpending
  · trivial
  · exact begun_append hbegun hcontinues hwidth
  · exact begun_start b
  · exact begun_start b

/-- Bytes other than a line feed yield no line feed. -/
theorem feed_newline (hbegun : Begun pending) (h : b ≠ newline) : '\n' ∉ (feed pending b).1 := by
  unfold feed
  split_ifs with hcontinues hwidth hpending
  · simpa using (ofNat_ne_newline (codePoint_ne_newline hbegun hcontinues hwidth)).symm
  · simp
  · exact start_newline h
  · rw [List.mem_cons, not_or]
    exact ⟨replacement_ne_newline.symm, start_newline h⟩

/-- Bytes without a line feed decode to none. -/
theorem decodeFrom_newline (hbegun : Begun pending) (h : newline ∉ bytes) :
    '\n' ∉ decodeFrom pending bytes := by
  induction bytes generalizing pending with
  | nil =>
      unfold decodeFrom
      split_ifs
      · simp
      · simpa using replacement_ne_newline.symm
  | cons b bytes ih =>
      rw [List.mem_cons, not_or] at h
      rw [decodeFrom, List.mem_append, not_or]
      exact ⟨feed_newline hbegun (Ne.symm h.1), ih (begun_feed hbegun b) h.2⟩

/-- Only newlines decode to newlines. -/
theorem not_mem_decode (h : newline ∉ bytes) : '\n' ∉ decode bytes :=
  decodeFrom_newline trivial h

/-- Decoding splits at a line feed. -/
theorem decode_part (front bytes : List UInt8) :
    decode (front ++ newline :: bytes) = decode front ++ '\n' :: decode bytes := by
  rw [decode_append (cuts_newline front bytes), decode_newline]

/-- The lines of the decoded bytes are the decoded lines. -/
theorem complete_decode (bytes : List UInt8) :
    complete '\n' (decode bytes) = (complete newline bytes).map decode := by
  induction bytes using parts_induction newline with
  | hlast bytes h =>
      rw [complete_of_not_mem h, complete_of_not_mem (not_mem_decode h), List.map_nil]
  | hpart front bytes h ih =>
      rw [decode_part, complete_append_cons (not_mem_decode h), complete_append_cons h, ih,
        List.map_cons]

/-- The unfinished line of the text is the decoded unfinished line of the bytes. -/
theorem unfinished_decode (bytes : List UInt8) :
    unfinished '\n' (decode bytes) = decode (unfinished newline bytes) := by
  induction bytes using parts_induction newline with
  | hlast bytes h => rw [unfinished_of_not_mem h, unfinished_of_not_mem (not_mem_decode h)]
  | hpart front bytes h ih =>
      rw [decode_part, unfinished_append_cons (not_mem_decode h), unfinished_append_cons h, ih]

end Newlines

end Utf8
end Library
end DarkXray
